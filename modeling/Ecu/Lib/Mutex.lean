import Mathlib.Logic.Function.Basic
import Mathlib.Tactic.SplitIfs

/-!
# A recursive mutex

A lock has an owner and a hold count: the owner may take it again, and it is free when the owner has released it as
often as it was taken. Threads execute their code event by event, waiting where they cannot take the lock. As long as
the code of every thread gives back what the thread holds (`Sound`) the owner will free the lock; an owner whose code
is gone has taken more than it will give back (`Stuck`), and stays the owner for ever.
-/

namespace Mutex

/-- What a thread does: it takes the lock, releases it, or something else. -/
inductive Event (ε : Type) where
  | take
  | release
  | other (effect : ε)
deriving DecidableEq

structure Lock (τ : Type) where
  owner : Option τ
  hold : Nat
deriving DecidableEq

variable {τ ε : Type} [DecidableEq τ]

namespace Lock

/-- `none` where the thread has to wait. -/
def take (l : Lock τ) (t : τ) : Option (Lock τ) :=
  if l.owner = some t then some ⟨some t, l.hold + 1⟩
  else if l.owner = none then some ⟨some t, l.hold + 1⟩
  else none

/-- Only the owner can. -/
def release (l : Lock τ) (t : τ) : Lock τ :=
  if l.owner = some t then ⟨if l.hold - 1 = 0 then none else some t, l.hold - 1⟩ else l

/-- How often the thread has taken the lock and not released it. -/
def held (l : Lock τ) (t : τ) : Nat :=
  if l.owner = some t then l.hold else 0

/-- It is held just when it has an owner. -/
def Regular (l : Lock τ) : Prop :=
  l.owner = none ↔ l.hold = 0

end Lock

/-- The lock and what each thread has still to execute. -/
structure State (τ ε : Type) where
  lock : Lock τ
  rest : τ → List (Event ε)

namespace State

/-- The next event of a thread; `none` where it has none or has to wait. -/
def exec (s : State τ ε) (t : τ) : Option (Event ε × State τ ε) :=
  match s.rest t with
  | [] => none
  | .take :: code => (s.lock.take t).map fun lock => (.take, ⟨lock, Function.update s.rest t code⟩)
  | .release :: code => some (.release, ⟨s.lock.release t, Function.update s.rest t code⟩)
  | .other effect :: code => some (.other effect, ⟨s.lock, Function.update s.rest t code⟩)

/-- The thread is to execute this code now. -/
def start (s : State τ ε) (t : τ) (code : List (Event ε)) : State τ ε :=
  { s with rest := Function.update s.rest t code }

end State

/-- The code gives back a lock that is held `n` times, and everything that it takes itself. -/
def Closes : List (Event ε) → Nat → Prop
  | [], n => n = 0
  | .take :: code, n => Closes code (n + 1)
  | .release :: code, n => 0 < n ∧ Closes code (n - 1)
  | .other _ :: code, n => Closes code n

theorem State.start_self (s : State τ ε) (t : τ) (code : List (Event ε)) : (s.start t code).rest t = code :=
  Function.update_self ..

theorem State.start_of_ne (s : State τ ε) {t u : τ} (ne : u ≠ t) (code : List (Event ε)) :
    (s.start t code).rest u = s.rest u :=
  Function.update_of_ne ne ..

/-- Code that closes may be followed by code for what was held before. -/
theorem closes_append {first second : List (Event ε)} {n k : Nat} (closes : Closes first n)
    (closes' : Closes second k) :
    Closes (first ++ second) (n + k) := by
  induction first generalizing n with
  | nil =>
    have none : n = 0 := closes
    rw [none, Nat.zero_add]
    exact closes'
  | cons e first ih =>
    cases e with
    | take =>
      have later := ih closes
      rw [Nat.add_right_comm] at later
      exact later
    | release =>
      obtain ⟨held, closes⟩ := closes
      refine ⟨Nat.lt_of_lt_of_le held (Nat.le_add_right n k), ?_⟩
      have later := ih closes
      rwa [← Nat.sub_add_comm held] at later
    | other effect => exact ih closes

theorem closes_others (effects : List ε) : Closes (effects.map Event.other) 0 := by
  induction effects with
  | nil => rfl
  | cons effect effects ih => exact ih

theorem Closes.append {first second : List (Event ε)} (closes : Closes first 0) (closes' : Closes second 0) :
    Closes (first ++ second) 0 :=
  closes_append closes closes'

theorem closes_flatMap {α : Type} {code : α → List (Event ε)} {items : List α} (closes : ∀ a, Closes (code a) 0) :
    Closes (items.flatMap code) 0 := by
  induction items with
  | nil => rfl
  | cons a items ih => exact (closes a).append ih

/-- A critical section. -/
theorem closes_section {code : List (Event ε)} (closes : Closes code 0) : Closes (.take :: (code ++ [.release])) 0 := by
  have all : Closes (code ++ [.release]) (0 + 1) := closes_append closes ⟨Nat.one_pos, rfl⟩
  exact all

/-! ## What the operations do to the hold counts -/

namespace Lock

variable {l l' : Lock τ} {t u : τ}

theorem held_of_ne (owns : l.owner = some t) (ne : u ≠ t) : l.held u = 0 := by
  rw [held, owns, if_neg]
  exact fun same => ne (Option.some.inj same).symm

theorem held_none (free : l.owner = none) : l.held u = 0 := by
  rw [held, free, if_neg (fun owns => by cases owns)]

/-- The lock was free or the thread's own. -/
theorem take_cases (taken : l.take t = some l') :
    (l.owner = some t ∨ l.owner = none) ∧ l' = ⟨some t, l.hold + 1⟩ := by
  rw [take] at taken
  split_ifs at taken with own free
  · exact ⟨.inl own, (Option.some.inj taken).symm⟩
  · exact ⟨.inr free, (Option.some.inj taken).symm⟩

theorem take_held (regular : l.Regular) (taken : l.take t = some l') : l'.held t = l.held t + 1 := by
  obtain ⟨own | free, rfl⟩ := take_cases taken
  · rw [held, held, own, if_pos rfl, if_pos rfl]
  · rw [held, held_none free, if_pos rfl, regular.1 free]

theorem take_held_of_ne (taken : l.take t = some l') (ne : u ≠ t) : l'.held u = l.held u := by
  obtain ⟨own | free, rfl⟩ := take_cases taken
  · rw [held_of_ne rfl ne, held_of_ne own ne]
  · rw [held_of_ne rfl ne, held_none free]

theorem take_regular (taken : l.take t = some l') : l'.Regular := by
  obtain ⟨-, rfl⟩ := take_cases taken
  exact iff_of_false (fun free => by cases free) (Nat.succ_ne_zero _)

theorem release_held (t : τ) : (l.release t).held t = l.held t - 1 := by
  by_cases own : l.owner = some t
  · rw [release, held, held, if_pos own, if_pos own]
    by_cases last : l.hold - 1 = 0
    · simp [last]
    · simp [last]
  · rw [release, if_neg own, held, if_neg own]

theorem release_held_of_ne (ne : u ≠ t) : (l.release t).held u = l.held u := by
  rw [release]
  split_ifs with own last
  · rw [held_none rfl, held_of_ne own ne]
  · rw [held_of_ne rfl ne, held_of_ne own ne]
  · rfl

theorem release_regular (regular : l.Regular) : (l.release t).Regular := by
  rw [release]
  split_ifs with own last
  · exact iff_of_true rfl last
  · exact iff_of_false (fun free => by cases free) last
  · exact regular

end Lock

/-! ## Threads that give back what they hold -/

variable {s s' : State τ ε} {t : τ}

theorem exec_cases {e : Event ε} (made : s.exec t = some (e, s')) :
    ∃ code, s.rest t = e :: code ∧ s'.rest = Function.update s.rest t code ∧
      match e with
      | .take => s.lock.take t = some s'.lock
      | .release => s'.lock = s.lock.release t
      | .other _ => s'.lock = s.lock := by
  rw [State.exec] at made
  split at made
  · cases made
  · next code rest =>
    obtain ⟨lock, taken, same⟩ := Option.map_eq_some_iff.1 made
    cases same
    exact ⟨code, rest, rfl, taken⟩
  · next code rest =>
    cases made
    exact ⟨code, rest, rfl, rfl⟩
  · next effect code rest =>
    cases made
    exact ⟨code, rest, rfl, rfl⟩

theorem exec_owner (owns : s.lock.owner = some t) {e : Event ε} (made : s.exec t = some (e, s')) :
    s'.lock.owner = some t ∨ s'.lock.owner = none := by
  obtain ⟨code, -, -, lock⟩ := exec_cases made
  cases e with
  | take =>
    obtain ⟨-, taken⟩ := Lock.take_cases lock
    exact .inl (by rw [taken])
  | release =>
    have lock : s'.lock = s.lock.release t := lock
    rw [lock, Lock.release, if_pos owns]
    dsimp only
    split_ifs
    · exact .inr rfl
    · exact .inl rfl
  | other effect =>
    have lock : s'.lock = s.lock := lock
    exact .inl (lock ▸ owns)

/-- Every thread will give back what it holds. -/
structure Sound (s : State τ ε) : Prop where
  closes : ∀ t, Closes (s.rest t) (s.lock.held t)
  regular : s.lock.Regular

theorem Sound.exec (sound : Sound s) {e : Event ε} (made : s.exec t = some (e, s')) : Sound s' := by
  obtain ⟨code, rest, later, lock⟩ := exec_cases made
  have own := sound.closes t
  rw [rest] at own
  have other {u : τ} (ne : u ≠ t) (same : s'.lock.held u = s.lock.held u) : Closes (s'.rest u) (s'.lock.held u) := by
    rw [later, Function.update_of_ne ne, same]
    exact sound.closes u
  have self : s'.rest t = code := by
    rw [later, Function.update_self]
  cases e with
  | take =>
    refine ⟨fun u => ?_, Lock.take_regular lock⟩
    by_cases same : u = t
    · rw [same, self, Lock.take_held sound.regular lock]
      exact own
    · exact other same (Lock.take_held_of_ne lock same)
  | release =>
    have lock : s'.lock = s.lock.release t := lock
    refine ⟨fun u => ?_, lock ▸ Lock.release_regular sound.regular⟩
    by_cases same : u = t
    · rw [same, self, lock, Lock.release_held]
      exact own.2
    · exact other same (by rw [lock, Lock.release_held_of_ne same])
  | other effect =>
    have lock : s'.lock = s.lock := lock
    refine ⟨fun u => ?_, lock ▸ sound.regular⟩
    by_cases same : u = t
    · rw [same, self, lock]
      exact own
    · exact other same (by rw [lock])

/-- A thread that holds nothing may be given other code. -/
theorem Sound.start (sound : Sound s) (free : s.lock.owner ≠ some t) {code : List (Event ε)} (closes : Closes code 0) :
    Sound (s.start t code) := by
  refine ⟨fun u => ?_, sound.regular⟩
  by_cases same : u = t
  · have none : s.lock.held t = 0 := if_neg free
    rw [same, State.start_self]
    exact none ▸ closes
  · rw [State.start_of_ne s same]
    exact sound.closes u

/-- A thread with nothing to execute does not own the lock. -/
theorem Sound.idle (sound : Sound s) (done : s.rest t = []) : s.lock.owner ≠ some t := by
  intro owns
  have own := sound.closes t
  rw [done, Lock.held, if_pos owns] at own
  rw [sound.regular.2 own] at owns
  cases owns

/-- An owner has something to execute, and can. -/
theorem Sound.progress (sound : Sound s) (owns : s.lock.owner = some t) : ∃ e s', s.exec t = some (e, s') := by
  have own := sound.closes t
  have held : s.lock.held t = s.lock.hold := if_pos owns
  have positive : s.lock.hold ≠ 0 := fun none => by
    have free := sound.regular.2 none
    rw [owns] at free
    cases free
  rw [State.exec]
  cases rest : s.rest t with
  | nil =>
    rw [rest, held] at own
    exact absurd own positive
  | cons e code =>
    cases e with
    | take =>
      dsimp only
      rw [Lock.take, if_pos owns]
      exact ⟨_, _, rfl⟩
    | release => exact ⟨_, _, rfl⟩
    | other effect => exact ⟨_, _, rfl⟩

/-! ## Owners whose code is gone -/

/-- The owner has taken the lock more often than it will release it. -/
structure Stuck (s : State τ ε) (t : τ) : Prop where
  owns : s.lock.owner = some t
  more : ∃ n < s.lock.hold, Closes (s.rest t) n

theorem Stuck.exec (stuck : Stuck s t) {u : τ} {e : Event ε} (made : s.exec u = some (e, s')) : Stuck s' t := by
  obtain ⟨code, rest, later, lock⟩ := exec_cases made
  obtain ⟨n, more, closes⟩ := stuck.more
  have owns := stuck.owns
  by_cases same : u = t
  · subst same
    have self : s'.rest u = code := by
      rw [later, Function.update_self]
    rw [rest] at closes
    cases e with
    | take =>
      obtain ⟨-, taken⟩ := Lock.take_cases lock
      refine ⟨by rw [taken], n + 1, ?_, self ▸ closes⟩
      rw [taken]
      exact Nat.succ_lt_succ more
    | release =>
      have lock : s'.lock = s.lock.release u := lock
      obtain ⟨positive, closes⟩ := closes
      have still : s.lock.hold - 1 ≠ 0 := by omega
      rw [Lock.release, if_pos owns, if_neg still] at lock
      refine ⟨by rw [lock], n - 1, ?_, self ▸ closes⟩
      rw [lock]
      show n - 1 < s.lock.hold - 1
      omega
    | other effect =>
      have lock : s'.lock = s.lock := lock
      exact ⟨lock ▸ owns, n, lock ▸ more, self ▸ closes⟩
  · have own : s'.rest t = s.rest t := by
      rw [later, Function.update_of_ne (Ne.symm same)]
    have unchanged : s'.lock = s.lock := by
      cases e with
      | take =>
        obtain ⟨own | free, -⟩ := Lock.take_cases lock
        · rw [owns] at own
          exact absurd (Option.some.inj own).symm same
        · rw [owns] at free
          cases free
      | release =>
        have lock : s'.lock = s.lock.release u := lock
        rw [lock, Lock.release, if_neg]
        rw [owns]
        exact fun other => same (Option.some.inj other).symm
      | other effect => exact lock
    exact ⟨unchanged ▸ owns, n, unchanged ▸ more, own ▸ closes⟩

/-- Other code does not help. -/
theorem Stuck.start (stuck : Stuck s t) {u : τ} {code : List (Event ε)} (closes : Closes code 0) :
    Stuck (s.start u code) t := by
  obtain ⟨n, more, own⟩ := stuck.more
  by_cases same : u = t
  · refine ⟨stuck.owns, 0, Nat.lt_of_le_of_lt (Nat.zero_le n) more, ?_⟩
    subst same
    rwa [State.start_self]
  · refine ⟨stuck.owns, n, more, ?_⟩
    rwa [State.start_of_ne s (Ne.symm same)]

/-- An owner whose code is taken away. -/
theorem Sound.stuck (sound : Sound s) (owns : s.lock.owner = some t) : Stuck (s.start t []) t := by
  refine ⟨owns, 0, Nat.pos_of_ne_zero fun none => ?_, ?_⟩
  · have free := sound.regular.2 none
    rw [owns] at free
    cases free
  · rw [State.start_self]
    rfl

end Mutex
