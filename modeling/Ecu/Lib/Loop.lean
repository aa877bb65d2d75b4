import Mathlib.Order.Basic

/-!
# Loops that may not end

The body of a loop gives nothing where the loop is left, or else what the turn has done and the next state. A measure
that every turn lowers bounds the turns (`run_of_measure`). A turn that gives its own state back is made for ever
(`not_ends_of_same`).
-/

namespace Loop

variable {σ τ : Type} (body : σ → Option (τ × σ))

/-- The turns and the last state; `none` when there is no fuel left. -/
def run : Nat → σ → Option (List τ × σ)
  | 0, _ => none
  | fuel + 1, s =>
    match body s with
    | none => some ([], s)
    | some (turn, next) => (run fuel next).map fun out => (turn :: out.1, out.2)

/-- The loop is left after finitely many turns. -/
def Ends (s : σ) : Prop :=
  ∃ fuel out, run body fuel s = some out

/-- The loop is left after at most `n` turns. -/
def EndsWithin (n : Nat) (s : σ) : Prop :=
  ∃ fuel out, run body fuel s = some out ∧ out.1.length ≤ n

/-- A turn that the loop makes, whether it ends or not. -/
inductive Makes : σ → τ → Prop
  | now {s next : σ} {turn : τ} (step : body s = some (turn, next)) : Makes s turn
  | later {s next : σ} {first turn : τ} (step : body s = some (first, next)) (makes : Makes next turn) :
    Makes s turn

variable {body}

theorem ends_of_none {s : σ} (left : body s = none) : Ends body s := by
  refine ⟨1, ([], s), ?_⟩
  rw [run, left]

theorem EndsWithin.ends {n : Nat} {s : σ} (within : EndsWithin body n s) : Ends body s := by
  obtain ⟨fuel, out, ended, -⟩ := within
  exact ⟨fuel, out, ended⟩

theorem endsWithin_of_none {n : Nat} {s : σ} (left : body s = none) : EndsWithin body n s := by
  refine ⟨1, ([], s), ?_, Nat.zero_le n⟩
  rw [run, left]

theorem endsWithin_step {n : Nat} {s next : σ} {turn : τ} (step : body s = some (turn, next))
    (within : EndsWithin body n next) : EndsWithin body (n + 1) s := by
  obtain ⟨fuel, out, ended, few⟩ := within
  refine ⟨fuel + 1, (turn :: out.1, out.2), ?_, Nat.succ_le_succ few⟩
  rw [run, step]
  dsimp only
  rw [ended]
  rfl

theorem EndsWithin.mono {m n : Nat} (more : m ≤ n) {s : σ} (within : EndsWithin body m s) : EndsWithin body n s := by
  obtain ⟨fuel, out, ended, few⟩ := within
  exact ⟨fuel, out, ended, Nat.le_trans few more⟩

theorem ends_step {s next : σ} {turn : τ} (step : body s = some (turn, next)) : Ends body s ↔ Ends body next := by
  constructor
  · rintro ⟨fuel, out, ended⟩
    cases fuel with
    | zero => cases ended
    | succ fuel =>
      rw [run, step] at ended
      obtain ⟨rest, ended, -⟩ := Option.map_eq_some_iff.1 ended
      exact ⟨fuel, rest, ended⟩
  · rintro ⟨fuel, out, ended⟩
    refine ⟨fuel + 1, (turn :: out.1, out.2), ?_⟩
    rw [run, step]
    dsimp only
    rw [ended]
    rfl

/-- States in which every turn leads to another one of them. -/
theorem not_ends_of_always {Inv : σ → Prop}
    (always : ∀ {s : σ}, Inv s → ∃ turn next, body s = some (turn, next) ∧ Inv next) {s : σ} (inv : Inv s) :
    ¬ Ends body s := by
  rintro ⟨fuel, out, ended⟩
  induction fuel generalizing s out with
  | zero => cases ended
  | succ fuel ih =>
    obtain ⟨turn, next, step, later⟩ := always inv
    rw [run, step] at ended
    obtain ⟨rest, ended, -⟩ := Option.map_eq_some_iff.1 ended
    exact ih later rest ended

theorem not_ends_of_same {s : σ} {turn : τ} (step : body s = some (turn, s)) : ¬ Ends body s := by
  have always : ∀ {s' : σ}, s' = s → ∃ turn next, body s' = some (turn, next) ∧ next = s :=
    fun same => ⟨turn, s, same ▸ step, rfl⟩
  exact not_ends_of_always always rfl

/-- An invariant and a measure that every turn lowers: the loop ends, and it has made no more turns than the measure
says. -/
theorem run_of_measure {Inv : σ → Prop} {measure : σ → Nat}
    (lowers : ∀ {s next : σ} {turn : τ}, Inv s → body s = some (turn, next) →
      Inv next ∧ measure next < measure s)
    {s : σ} (inv : Inv s) {fuel : Nat} (enough : measure s < fuel) :
    ∃ out, run body fuel s = some out ∧ out.1.length ≤ measure s ∧ Inv out.2 := by
  induction fuel generalizing s with
  | zero => exact absurd enough (Nat.not_lt_zero _)
  | succ fuel ih =>
    rw [run]
    cases step : body s with
    | none => exact ⟨_, rfl, Nat.zero_le _, inv⟩
    | some out =>
      obtain ⟨turn, next⟩ := out
      have lowered := lowers inv step
      obtain ⟨rest, ended, few, last⟩ := ih lowered.1 (Nat.lt_of_lt_of_le lowered.2 (Nat.le_of_lt_succ enough))
      refine ⟨(turn :: rest.1, rest.2), ?_, ?_, last⟩
      · dsimp only
        rw [ended]
        rfl
      · exact Nat.le_trans (Nat.succ_le_succ few) lowered.2

/-- What the turns of an invariant state do, every turn of the run does. -/
theorem Makes.rule {Inv : σ → Prop} {Does : τ → Prop}
    (step : ∀ {s next : σ} {turn : τ}, Inv s → body s = some (turn, next) → Inv next ∧ Does turn) {s : σ} {turn : τ}
    (inv : Inv s) (makes : Makes body s turn) : Does turn := by
  induction makes with
  | now made => exact (step inv made).2
  | later made _ ih => exact ih (step inv made).1

theorem run_makes {fuel : Nat} {s : σ} {out : List τ × σ} (ended : run body fuel s = some out) :
    ∀ turn ∈ out.1, Makes body s turn := by
  induction fuel generalizing s out with
  | zero => cases ended
  | succ fuel ih =>
    rw [run] at ended
    cases made : body s with
    | none =>
      rw [made] at ended
      cases ended
      exact fun turn mem => absurd mem List.not_mem_nil
    | some first =>
      rw [made] at ended
      obtain ⟨rest, later, rfl⟩ := Option.map_eq_some_iff.1 ended
      intro turn mem
      rcases List.mem_cons.1 mem with rfl | mem
      · exact .now made
      · exact .later made (ih later turn mem)

/-- The state that the loop is left in is an invariant one. -/
theorem run_last {Inv : σ → Prop} (keeps : ∀ {s next : σ} {turn : τ}, Inv s → body s = some (turn, next) → Inv next)
    {fuel : Nat} {s : σ} {out : List τ × σ} (inv : Inv s) (ended : run body fuel s = some out) : Inv out.2 := by
  induction fuel generalizing s out with
  | zero => cases ended
  | succ fuel ih =>
    rw [run] at ended
    cases made : body s with
    | none =>
      rw [made] at ended
      cases ended
      exact inv
    | some first =>
      rw [made] at ended
      obtain ⟨rest, later, rfl⟩ := Option.map_eq_some_iff.1 ended
      have last : Inv rest.2 := ih (keeps inv made) later
      exact last

theorem run_mono {m n : Nat} (more : m ≤ n) {s : σ} {out : List τ × σ} (ended : run body m s = some out) :
    run body n s = some out := by
  induction m generalizing n s out with
  | zero => cases ended
  | succ m ih =>
    obtain ⟨n, rfl⟩ := Nat.exists_eq_succ_of_ne_zero (Nat.ne_of_gt (Nat.lt_of_lt_of_le (Nat.succ_pos m) more))
    rw [run] at ended ⊢
    cases made : body s with
    | none => rwa [made] at ended
    | some first =>
      rw [made] at ended
      obtain ⟨rest, later, rfl⟩ := Option.map_eq_some_iff.1 ended
      dsimp only
      rw [ih (Nat.le_of_succ_le_succ more) later]
      rfl

/-- Where a turn and every turn made after it are related, so are the turns of a run, the earlier one first. -/
theorem run_pairwise {Related : τ → τ → Prop} (Inv : σ → Prop)
    (step : ∀ {s next : σ} {turn later : τ}, Inv s → body s = some (turn, next) → Makes body next later →
      Related turn later)
    (keeps : ∀ {s next : σ} {turn : τ}, Inv s → body s = some (turn, next) → Inv next) {fuel : Nat} {s : σ}
    {out : List τ × σ} (inv : Inv s) (ended : run body fuel s = some out) : out.1.Pairwise Related := by
  induction fuel generalizing s out with
  | zero => cases ended
  | succ fuel ih =>
    rw [run] at ended
    cases first : body s with
    | none =>
      rw [first] at ended
      cases ended
      exact List.Pairwise.nil
    | some turn =>
      rw [first] at ended
      obtain ⟨rest, later, rfl⟩ := Option.map_eq_some_iff.1 ended
      exact List.pairwise_cons.2 ⟨fun next mem => step inv first (run_makes later next mem), ih (keeps inv first) later⟩

/-! ## Loops that are given an outcome each turn -/

section Fed

variable {ω : Type} (turn : σ → ω → Option (τ × Option σ)) (outcomes : Nat → ω)

/-- The body with the outcome of its turn. A turn may leave the loop; then there is no state any more. -/
def fed : Option σ × Nat → Option (τ × (Option σ × Nat))
  | (none, _) => none
  | (some s, k) => (turn s (outcomes k)).map fun out => (out.1, (out.2, k + 1))

/-- The turns for as many outcomes as there are. -/
def turns : List ω → Option σ → List τ
  | [], _ => []
  | _ :: _, none => []
  | o :: os, some s =>
    match turn s o with
    | none => []
    | some (first, next) => first :: turns os next

variable {turn outcomes}

theorem fed_some {s : σ} {k : Nat} {first : τ} {next : Option σ × Nat}
    (step : fed turn outcomes (some s, k) = some (first, next)) :
    turn s (outcomes k) = some (first, next.1) ∧ next.2 = k + 1 := by
  obtain ⟨out, made, same⟩ := Option.map_eq_some_iff.1 step
  cases same
  exact ⟨made, rfl⟩

/-- A run makes the turns for its outcomes. -/
theorem turns_of_run {fuel : Nat} {state : Option σ} {k : Nat} {out : List τ × (Option σ × Nat)}
    (ended : run (fed turn outcomes) fuel (state, k) = some out) :
    turns turn ((List.range' k fuel).map outcomes) state = out.1 := by
  induction fuel generalizing state k out with
  | zero => cases ended
  | succ fuel ih =>
    rw [List.range'_succ, List.map_cons]
    rw [run] at ended
    cases state with
    | none =>
      cases ended
      rfl
    | some s =>
      rw [turns]
      rw [fed] at ended
      cases made : turn s (outcomes k) with
      | none =>
        rw [made] at ended
        cases ended
        rfl
      | some first =>
        rw [made, Option.map_some] at ended
        obtain ⟨rest, later, rfl⟩ := Option.map_eq_some_iff.1 ended
        dsimp only
        rw [ih later]

/-- What a turn preserves holds as long as there is a state. -/
def Lasts (Inv : σ → Prop) (state : Option σ × Nat) : Prop :=
  ∀ s ∈ state.1, Inv s

theorem lasts_some {Inv : σ → Prop} {s : σ} {k : Nat} (inv : Inv s) : Lasts Inv (some s, k) := by
  intro other same
  cases same
  exact inv

theorem lasts_next {Inv : σ → Prop}
    (keeps : ∀ {s next : σ} {o : ω} {first : τ}, Inv s → turn s o = some (first, some next) → Inv next)
    {state next : Option σ × Nat} {first : τ} (inv : Lasts Inv state)
      (step : fed turn outcomes state = some (first, next)) :
    Lasts Inv next := by
  obtain ⟨state, k⟩ := state
  cases state with
  | none => cases step
  | some s =>
    obtain ⟨after, k'⟩ := next
    cases after with
    | none => exact fun s mem => absurd mem (Option.not_mem_none s)
    | some next => exact lasts_some (keeps (inv s rfl) (fed_some step).1)

/-- A loop ends at a turn, or from the state that the turn gives. -/
theorem fed_ends_of_next {s : σ} {k : Nat}
    (later : ∀ {first : τ} {next : σ}, turn s (outcomes k) = some (first, some next) →
      Ends (fed turn outcomes) (some next, k + 1)) : Ends (fed turn outcomes) (some s, k) := by
  cases made : turn s (outcomes k) with
  | none => exact ends_of_none (by rw [fed, made]; rfl)
  | some out =>
    obtain ⟨first, next⟩ := out
    have step : fed turn outcomes (some s, k) = some (first, (next, k + 1)) := by
      rw [fed, made]
      rfl
    rw [ends_step step]
    cases next with
    | none => exact ends_of_none rfl
    | some next => exact later made

/-- Turns do not raise the measure, and lower it unless their outcome is a bad one. If bad outcomes do not go on for
ever the loop ends. -/
theorem fed_ends (Inv : σ → Prop) (measure : σ → Nat) {Bad : ω → Prop}
    (keeps : ∀ {s next : σ} {o : ω} {first : τ}, Inv s → turn s o = some (first, some next) →
      Inv next ∧ measure next ≤ measure s ∧ (¬ Bad o → measure next < measure s))
    (fair : ∀ n, ∃ k, n ≤ k ∧ ¬ Bad (outcomes k)) {s : σ} (inv : Inv s) (k : Nat) :
      Ends (fed turn outcomes) (some s, k) := by
  suffices all : ∀ n s k, Inv s → measure s < n → Ends (fed turn outcomes) (some s, k) from
    all _ s k inv (Nat.lt_succ_self _)
  intro n
  induction n with
  | zero => exact fun s k inv small => absurd small (Nat.not_lt_zero _)
  | succ n lower =>
    intro s k inv small
    obtain ⟨later, late, good⟩ := fair k
    obtain ⟨d, rfl⟩ := Nat.exists_eq_add_of_le late
    -- on the number of turns up to the good one
    induction d generalizing s k with
    | zero =>
      refine fed_ends_of_next fun made => ?_
      obtain ⟨inv', -, less⟩ := keeps inv made
      exact lower _ _ inv' (Nat.lt_of_lt_of_le (less good) (Nat.le_of_lt_succ small))
    | succ d ih =>
      refine fed_ends_of_next fun made => ?_
      obtain ⟨inv', less, -⟩ := keeps inv made
      have same : k + (d + 1) = k + 1 + d := by omega
      exact ih _ (k + 1) inv' (Nat.lt_of_le_of_lt less small) (Nat.le_add_right _ _) (same ▸ good)

/-- Where every turn for a bad outcome leads to a state with another turn, bad outcomes for ever keep the loop going. -/
theorem not_ends_of_bad {Inv : σ → Prop} {Bad : ω → Prop}
    (stays : ∀ {s : σ} {o : ω}, Inv s → Bad o → ∃ first next, turn s o = some (first, some next) ∧ Inv next)
    (bad : ∀ k, Bad (outcomes k)) {s : σ} (inv : Inv s) (k : Nat) : ¬ Ends (fed turn outcomes) (some s, k) := by
  have always : ∀ {state : Option σ × Nat}, (∃ s, state.1 = some s ∧ Inv s) →
      ∃ first next, fed turn outcomes state = some (first, next) ∧ ∃ s, next.1 = some s ∧ Inv s := by
    rintro ⟨state, k⟩ ⟨s, same, inv⟩
    obtain rfl : state = some s := same
    obtain ⟨first, next, made, inv'⟩ := stays inv (bad k)
    refine ⟨first, (some next, k + 1), ?_, next, rfl, inv'⟩
    rw [fed, made]
    rfl
  exact not_ends_of_always always ⟨s, rfl, inv⟩

end Fed

end Loop
