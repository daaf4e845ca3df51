/-
  JobScheduler.Library.Lifecycle
  ──────────────────────────────
  The life of a unit of work that is attempted a bounded number of times, each
  time not before a given moment.  The transitions say what a queue owes a job;
  what follows for whole lives is proved here, once and without the queue.
-/
import Mathlib.Order.Lattice
import JobScheduler.Library.Run

namespace Lifecycle

open Transition

/-! ## §1. Lives. -/

/-- The phases of a task with a budget of attempts. -/
inductive Phase
  | blocked | waiting | ready | taken | running | succeeded | dead | cancelled
  deriving DecidableEq, Repr

/-- Nobody has taken the work yet. -/
def Phase.pending : Phase → Bool
  | .blocked | .waiting | .ready => true
  | _ => false

/-- No attempt follows. -/
def Phase.final : Phase → Bool
  | .succeeded | .dead | .cancelled => true
  | _ => false

/-- What the lifecycle keeps of one task. -/
@[ext] structure Life (τ : Type) where
  phase : Phase
  attempts : ℕ
  budget : ℕ
  /-- The next attempt does not begin earlier. -/
  notBefore : τ

/-- What can happen to a task. -/
inductive Event (τ : Type)
  | create (phase : Phase) (budget : ℕ) (time : τ)
  | release (now : τ)
  | due (now : τ)
  | take (now : τ)
  | start
  | succeed
  | retry (time : τ)
  | die
  | cancel

variable {τ : Type} [LinearOrder τ]

/-- The transitions; `none` is a unit of work that does not exist yet. -/
def step : Option (Life τ) → Event τ → Option (Option (Life τ))
  | none, .create phase budget time =>
      if phase.pending = true ∧ 1 ≤ budget then some (some ⟨phase, 0, budget, time⟩) else none
  | some l, .release now =>
      if l.phase = .blocked then
        some (some { l with phase := if l.notBefore ≤ now then .ready else .waiting })
      else none
  | some l, .due now =>
      if l.phase = .waiting ∧ l.notBefore ≤ now then some (some { l with phase := .ready }) else none
  | some l, .take now =>
      if l.phase = .ready ∧ l.notBefore ≤ now then some (some { l with phase := .taken }) else none
  | some l, .start =>
      if l.phase = .taken ∧ l.attempts < l.budget then
        some (some { l with phase := .running, attempts := l.attempts + 1 })
      else none
  | some l, .succeed =>
      if l.phase = .running then some (some { l with phase := .succeeded }) else none
  | some l, .retry time =>
      if l.phase = .running ∧ l.attempts < l.budget then
        some (some { l with phase := .ready, notBefore := time })
      else none
  | some l, .die =>
      if l.phase = .running ∧ l.attempts = l.budget then some (some { l with phase := .dead }) else none
  | some l, .cancel =>
      if l.phase.pending = true then some (some { l with phase := .cancelled }) else none
  | _, _ => none

/-- **Inversion of one transition.** -/
inductive Stepped : Option (Life τ) → Event τ → Life τ → Prop
  | created (phase : Phase) (budget : ℕ) (time : τ) (hp : phase.pending = true) (hb : 1 ≤ budget) :
      Stepped none (.create phase budget time) ⟨phase, 0, budget, time⟩
  | released (l : Life τ) (now : τ) (hp : l.phase = .blocked) :
      Stepped (some l) (.release now)
        { l with phase := if l.notBefore ≤ now then .ready else .waiting }
  | due (l : Life τ) (now : τ) (hp : l.phase = .waiting) (hn : l.notBefore ≤ now) :
      Stepped (some l) (.due now) { l with phase := .ready }
  | taken (l : Life τ) (now : τ) (hp : l.phase = .ready) (hn : l.notBefore ≤ now) :
      Stepped (some l) (.take now) { l with phase := .taken }
  | started (l : Life τ) (hp : l.phase = .taken) (hb : l.attempts < l.budget) :
      Stepped (some l) .start { l with phase := .running, attempts := l.attempts + 1 }
  | succeeded (l : Life τ) (hp : l.phase = .running) :
      Stepped (some l) .succeed { l with phase := .succeeded }
  | retried (l : Life τ) (time : τ) (hp : l.phase = .running) (hb : l.attempts < l.budget) :
      Stepped (some l) (.retry time) { l with phase := .ready, notBefore := time }
  | died (l : Life τ) (hp : l.phase = .running) (hb : l.attempts = l.budget) :
      Stepped (some l) .die { l with phase := .dead }
  | cancelled (l : Life τ) (hp : l.phase.pending = true) :
      Stepped (some l) .cancel { l with phase := .cancelled }

/-- What an event can do, one case each. -/
theorem stepped {x x' : Option (Life τ)} {ev : Event τ} (h : step x ev = some x') :
    ∃ l, x' = some l ∧ Stepped x ev l := by
  unfold step at h
  split at h
  case h_10 => cases h
  all_goals
    split at h
    · cases h
      exact ⟨_, rfl, by constructor <;> simp_all⟩
    · cases h

/-- The cases are exactly the steps. -/
theorem step_iff {x : Option (Life τ)} {ev : Event τ} {l : Life τ} :
    step x ev = some (some l) ↔ Stepped x ev l := by
  constructor
  · intro h
    obtain ⟨l', hl, hs⟩ := stepped h
    cases hl
    exact hs
  · intro h
    cases h <;> simp_all [step]

/-! ## §2. Whole lives. -/

/-- A life that is over does not go on. -/
theorem final_stays {x : Option (Life τ)} {l : Life τ} {tr : List (Option (Life τ) × Event τ)}
    (h : Run step (some l) tr x) (hl : l.phase.final = true) : x = some l := by
  induction h with
  | nil => rfl
  | snoc _ hs ih =>
      obtain ⟨l', rfl, hst⟩ := stepped hs
      rw [ih] at hst
      cases hst with
      | released _ _ hp | due _ _ hp | taken _ _ hp | started _ hp | succeeded _ hp | retried _ _ hp
      | died _ hp => rw [hp] at hl; cases hl
      | cancelled _ hp => cases hph : l.phase <;> simp_all [Phase.final, Phase.pending]

/-- The event sets a new earliest moment. -/
def Event.postpones : Event τ → Bool
  | .retry _ => true
  | _ => false

/-- The earliest start stays until an event postpones it. -/
theorem notBefore_stays {l : Life τ} {x : Option (Life τ)} {tr : List (Option (Life τ) × Event τ)}
    (h : Run step (some l) tr x) (hno : ∀ p ∈ tr, p.2.postpones = false) :
    ∃ l', x = some l' ∧ l'.notBefore = l.notBefore := by
  induction h with
  | nil => exact ⟨l, rfl, rfl⟩
  | snoc _ hs ih =>
      obtain ⟨m, rfl, hm⟩ := ih (fun p hp => hno p (List.mem_append_left _ hp))
      obtain ⟨l', rfl, hst⟩ := stepped hs
      have hlast := hno _ (List.mem_append_right _ List.mem_cons_self)
      cases hst with
      | retried => cases hlast
      | _ => exact ⟨_, rfl, hm⟩

/-- Between a retry and the next attempt the work is taken, in time. -/
theorem taken_between {l : Life τ} {x : Option (Life τ)} {tr : List (Option (Life τ) × Event τ)}
    (h : Run step (some l) tr x) (hl : l.phase = .ready) (hno : ∀ p ∈ tr, p.2.postpones = false)
    {l' : Life τ} (hx : x = some l') (ht : l'.phase = .taken) :
    ∃ y now, (y, Event.take now) ∈ tr ∧ l.notBefore ≤ now := by
  induction h generalizing l' with
  | nil =>
      cases hx
      rw [hl] at ht
      cases ht
  | @snoc tr _ _ _ hrun hs _ =>
      have hpre : ∀ p ∈ tr, p.2.postpones = false := fun p hp => hno p (List.mem_append_left _ hp)
      obtain ⟨m, rfl, hm⟩ := notBefore_stays hrun hpre
      subst hx
      cases step_iff.mp hs with
      | taken _ now hp hn =>
          exact ⟨_, now, List.mem_append_right _ List.mem_cons_self, hm ▸ hn⟩
      | released => simp only at ht; split at ht <;> cases ht
      | _ => cases ht

/-- **Spacing.**  An attempt that follows a retry has been taken at the moment of
the retry or later. -/
theorem spaced {x₀ x y z : Option (Life τ)} {time : τ}
    {tr₁ tr₂ tr₃ : List (Option (Life τ) × Event τ)}
    (h : Run step x₀ (tr₁ ++ (x, .retry time) :: (tr₂ ++ (y, .start) :: tr₃)) z)
    (hno : ∀ p ∈ tr₂, p.2.postpones = false) :
    ∃ w now, (w, Event.take now) ∈ tr₂ ∧ time ≤ now := by
  obtain ⟨x', _, hretry, hrest⟩ := h.split_cons
  obtain ⟨y', hmid, hstart, _⟩ := hrest.split_cons
  obtain ⟨l, rfl, hl⟩ := stepped hretry
  obtain ⟨m, rfl, hm⟩ := stepped hstart
  cases hl with
  | retried l₀ _ _ _ =>
    cases hm with
    | started m₀ hp _ => exact taken_between hmid rfl hno rfl hp

end Lifecycle
