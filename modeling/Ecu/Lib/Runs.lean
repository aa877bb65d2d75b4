import Mathlib.Logic.Basic

/-!
# Runs of a step function

Acts are taken one after the other until one cannot be taken. What holds in every state reached (`Always`) is shown from
a condition on every step taken (`Along`) and an invariant; where a step against the condition never ends well the two
are the same (`always_iff_along`).
-/

namespace Runs

variable {σ α : Type} (step : σ → α → Option σ)

/-- The state after some acts, `none` where one of them cannot be taken. -/
def run : List α → σ → Option σ
  | [], s => some s
  | a :: acts, s => (step s a).bind (run acts)

/-- The property holds in every state that is reached. -/
def Always (P : σ → Prop) : List α → σ → Prop
  | [], s => P s
  | a :: acts, s => P s ∧ ∀ s', step s a = some s' → Always P acts s'

/-- The condition holds of every step that is taken. -/
def Along (Ok : σ → α → Prop) : List α → σ → Prop
  | [], _ => True
  | a :: acts, s => ∀ s', step s a = some s' → Ok s a ∧ Along Ok acts s'

variable {step}

theorem run_append {first second : List α} {s : σ} :
    run step (first ++ second) s = (run step first s).bind (run step second) := by
  induction first generalizing s with
  | nil => rfl
  | cons a first ih =>
    rw [List.cons_append, run, run]
    cases step s a with
    | none => rfl
    | some s' => exact ih

/-- The last state of a run is one that is reached. -/
theorem Always.last {P : σ → Prop} {acts : List α} {s s' : σ} (always : Always step P acts s)
    (ran : run step acts s = some s') :
    P s' := by
  induction acts generalizing s with
  | nil =>
    cases ran
    exact always
  | cons a acts ih =>
    obtain ⟨next, made, ran⟩ := Option.bind_eq_some_iff.1 ran
    exact ih (always.2 next made) ran

theorem along_cons {Ok : σ → α → Prop} {a : α} {acts : List α} {s s' : σ} (made : step s a = some s') (ok : Ok s a)
    (later : Along step Ok acts s') : Along step Ok (a :: acts) s := by
  intro next made'
  rw [made] at made'
  cases made'
  exact ⟨ok, later⟩

/-- A property of the states is one of the first and of what the steps lead to. -/
theorem always_iff_steps {P : σ → Prop} {acts : List α} {s : σ} :
    Always step P acts s ↔ P s ∧ Along step (fun s a => ∀ s', step s a = some s' → P s') acts s := by
  induction acts generalizing s with
  | nil => exact ⟨fun holds => ⟨holds, trivial⟩, And.left⟩
  | cons a acts ih =>
    constructor
    · rintro ⟨first, later⟩
      refine ⟨first, fun s' made => ⟨fun s'' made' => (ih.1 (later s'' made')).1, (ih.1 (later s' made)).2⟩⟩
    · rintro ⟨first, along⟩
      refine ⟨first, fun s' made => ?_⟩
      obtain ⟨holds, later⟩ := along s' made
      exact ih.2 ⟨holds s' made, later⟩

theorem along_and {Ok Ok' : σ → α → Prop} {acts : List α} {s : σ} :
    Along step (fun s a => Ok s a ∧ Ok' s a) acts s ↔ Along step Ok acts s ∧ Along step Ok' acts s := by
  induction acts generalizing s with
  | nil => exact ⟨fun _ => ⟨trivial, trivial⟩, fun _ => trivial⟩
  | cons a acts ih =>
    constructor
    · intro both
      exact ⟨fun s' made => ⟨(both s' made).1.1, (ih.1 (both s' made).2).1⟩,
        fun s' made => ⟨(both s' made).1.2, (ih.1 (both s' made).2).2⟩⟩
    · rintro ⟨left, right⟩ s' made
      exact ⟨⟨(left s' made).1, (right s' made).1⟩, ih.2 ⟨(left s' made).2, (right s' made).2⟩⟩

section Rules

variable (Inv : σ → Prop) {P : σ → Prop} {Ok : σ → α → Prop}

theorem run_rule (keeps : ∀ {s s' a}, Inv s → step s a = some s' → Inv s') {acts : List α} {s s' : σ} (inv : Inv s)
    (ran : run step acts s = some s') : Inv s' := by
  induction acts generalizing s with
  | nil =>
    cases ran
    exact inv
  | cons a acts ih =>
    obtain ⟨next, made, ran⟩ := Option.bind_eq_some_iff.1 ran
    exact ih (keeps inv made) ran

theorem always_of_along (good : ∀ {s}, Inv s → P s)
    (keeps : ∀ {s s' a}, Inv s → step s a = some s' → Ok s a → Inv s') {acts : List α} {s : σ} (inv : Inv s)
    (along : Along step Ok acts s) : Always step P acts s := by
  induction acts generalizing s with
  | nil => exact good inv
  | cons a acts ih =>
    refine ⟨good inv, fun s' made => ?_⟩
    obtain ⟨ok, later⟩ := along s' made
    exact ih (keeps inv made ok) later

theorem along_of_always (breaks : ∀ {s s' a}, Inv s → step s a = some s' → P s' → Ok s a)
    (keeps : ∀ {s s' a}, Inv s → step s a = some s' → Ok s a → Inv s') {acts : List α} {s : σ} (inv : Inv s)
    (always : Always step P acts s) : Along step Ok acts s := by
  induction acts generalizing s with
  | nil => trivial
  | cons a acts ih =>
    intro s' made
    have later := always.2 s' made
    have holds : P s' := by
      cases acts with
      | nil => exact later
      | cons a' acts => exact later.1
    have ok := breaks inv made holds
    exact ⟨ok, ih (keeps inv made ok) later⟩

theorem always_iff_along (good : ∀ {s}, Inv s → P s)
    (breaks : ∀ {s s' a}, Inv s → step s a = some s' → P s' → Ok s a)
    (keeps : ∀ {s s' a}, Inv s → step s a = some s' → Ok s a → Inv s') {acts : List α} {s : σ} (inv : Inv s) :
    Always step P acts s ↔ Along step Ok acts s :=
  ⟨along_of_always Inv breaks keeps inv, always_of_along Inv good keeps inv⟩

/-- Conditions that are the same where the invariant holds. -/
theorem along_congr {Ok' : σ → α → Prop} (same : ∀ {s s' a}, Inv s → step s a = some s' → (Ok s a ↔ Ok' s a))
    (keeps : ∀ {s s' a}, Inv s → step s a = some s' → Ok s a → Inv s') {acts : List α} {s : σ} (inv : Inv s) :
    Along step Ok acts s ↔ Along step Ok' acts s := by
  induction acts generalizing s with
  | nil => exact Iff.rfl
  | cons a acts ih =>
    constructor
    · intro along s' made
      obtain ⟨ok, later⟩ := along s' made
      exact ⟨(same inv made).1 ok, (ih (keeps inv made ok)).1 later⟩
    · intro along s' made
      obtain ⟨ok', later⟩ := along s' made
      have ok := (same inv made).2 ok'
      exact ⟨ok, (ih (keeps inv made ok)).2 later⟩

end Rules

end Runs
