import Mathlib.Data.List.Basic

/-!
# Scanning loops

A cursor runs over the positions below a limit; at some of them something happens, after which the
loop goes on or is left. `loop` is the loop as it is written, one position after the other. `scan` goes
from stop to stop. The two agree when the stops are in order (`loop_eq_scan`).
-/

namespace Scan

class Cursor (σ : Type) where
  pos : σ → Nat
  move : Nat → σ → σ
  pos_move : ∀ n s, pos (move n s) = n
  move_move : ∀ m n s, move m (move n s) = move m s
  move_pos : ∀ s, move (pos s) s = s

inductive Outcome (σ : Type) where
  | go (s : σ)
  | leave (s : σ)

/-- `if (place == pos) act`; a position below zero is never reached. -/
structure Stop (σ : Type) where
  place : Int
  act : σ → Outcome σ

section Loops

variable {σ : Type} [Cursor σ]

open Cursor

/-- `while (pos < limit) { stops; pos++; }` -/
def loop (limit : Nat) (stops : List (Stop σ)) : Nat → σ → σ
  | 0, s => s
  | fuel + 1, s =>
    if pos s < limit then
      match stops.find? fun stop => stop.place = (pos s : Int) with
      | none => loop limit stops fuel (move (pos s + 1) s)
      | some stop =>
        match stop.act s with
        | .go s' => loop limit stops fuel (move (pos s' + 1) s')
        | .leave s' => s'
    else s

/-- What every stop keeps, or establishes where it leaves the loop. -/
theorem loop_rule {limit : Nat} {stops : List (Stop σ)} {Q R : σ → Prop} (moves : ∀ n s, Q s → Q (move n s))
    (goes : ∀ stop ∈ stops, ∀ s s', Q s → stop.act s = .go s' → Q s')
    (leaves : ∀ stop ∈ stops, ∀ s s', Q s → stop.act s = .leave s' → R s') {fuel : Nat} {s : σ} (start : Q s) :
    Q (loop limit stops fuel s) ∨ R (loop limit stops fuel s) := by
  induction fuel generalizing s with
  | zero => exact .inl start
  | succ fuel ih =>
    rw [loop]
    split_ifs with more
    · split
      · exact ih (moves _ s start)
      · rename_i stop found
        have mem := List.mem_of_find?_eq_some found
        split
        · rename_i s' acted
          exact ih (moves _ s' (goes stop mem s s' start acted))
        · rename_i s' acted
          exact .inr (leaves stop mem s s' start acted)
    · exact .inl start

/-- The loop from stop to stop. -/
def scan (limit : Nat) : List (Stop σ) → σ → σ
  | [], s => move (max (pos s) limit) s
  | stop :: stops, s =>
    if (pos s : Int) ≤ stop.place ∧ stop.place < limit then
      match stop.act (move stop.place.toNat s) with
      | .go s' => scan limit stops (move (pos s' + 1) s')
      | .leave s' => s'
    else scan limit stops s

section Stops

variable {limit : Nat} {stops : List (Stop σ)} {place : Int} {act : σ → Outcome σ} {s : σ}

theorem scan_leave {left : σ} (acts : act (move place.toNat s) = .leave left) (before : (pos s : Int) ≤ place)
    (reached : place < limit) : scan limit (⟨place, act⟩ :: stops) s = left := by
  have here : (pos s : Int) ≤ (Stop.mk place act).place ∧ (Stop.mk place act).place < limit := ⟨before, reached⟩
  rw [scan, if_pos here]
  dsimp only
  rw [acts]

theorem scan_go {kept : σ} (acts : act (move place.toNat s) = .go kept) (before : (pos s : Int) ≤ place)
    (reached : place < limit) :
    scan limit (⟨place, act⟩ :: stops) s = scan limit stops (move (pos kept + 1) kept) := by
  have here : (pos s : Int) ≤ (Stop.mk place act).place ∧ (Stop.mk place act).place < limit := ⟨before, reached⟩
  rw [scan, if_pos here]
  dsimp only
  rw [acts]

theorem scan_miss (missed : ¬ ((pos s : Int) ≤ place ∧ place < limit)) :
    scan limit (⟨place, act⟩ :: stops) s = scan limit stops s := by
  have here : ¬ ((pos s : Int) ≤ (Stop.mk place act).place ∧ (Stop.mk place act).place < limit) := missed
  rw [scan, if_neg here]

/-- No stop is reached. -/
theorem scan_stuck (far : ∀ stop ∈ stops, (limit : Int) ≤ stop.place) :
    scan limit stops s = move (max (pos s) limit) s := by
  induction stops with
  | nil => rfl
  | cons stop stops ih =>
    have beyond := far stop List.mem_cons_self
    rw [scan, if_neg (by omega)]
    exact ih fun other mem => far other (List.mem_cons_of_mem _ mem)

end Stops

/-- Going on leaves the cursor where it is. -/
def Stop.Still (stop : Stop σ) : Prop :=
  ∀ s s', stop.act s = .go s' → pos s' = pos s

theorem scan_skip {limit : Nat} {stops : List (Stop σ)} {s : σ} (more : pos s < limit)
    (free : ∀ stop ∈ stops, stop.place ≠ pos s) : scan limit stops (move (pos s + 1) s) = scan limit stops s := by
  induction stops with
  | nil => rw [scan, scan, pos_move, move_move, Nat.max_eq_right more, Nat.max_eq_right (Nat.le_of_lt more)]
  | cons stop stops ih =>
    have other := free stop List.mem_cons_self
    rw [scan, scan, pos_move, move_move, ih fun stop mem => free stop (List.mem_cons_of_mem _ mem)]
    have same : (((pos s + 1 : Nat) : Int) ≤ stop.place ∧ stop.place < limit) ↔
        ((pos s : Int) ≤ stop.place ∧ stop.place < limit) := by omega
    simp only [same]

/-- Stops behind the cursor have no effect. -/
theorem scan_behind {limit : Nat} {before stops : List (Stop σ)} {s : σ}
    (behind : ∀ stop ∈ before, stop.place < pos s) : scan limit (before ++ stops) s = scan limit stops s := by
  induction before with
  | nil => rfl
  | cons stop before ih =>
    have passed := behind stop List.mem_cons_self
    rw [List.cons_append, scan, if_neg (by omega), ih fun stop mem => behind stop (List.mem_cons_of_mem _ mem)]

theorem find_split {stops : List (Stop σ)} {s : σ} {stop : Stop σ}
    (found : stops.find? (fun stop => stop.place = (pos s : Int)) = some stop)
      (sorted : stops.Pairwise (·.place < ·.place)) :
    stop.place = (pos s : Int) ∧ ∃ before after, stops = before ++ stop :: after ∧ ∀ other ∈ before,
      other.place < pos s := by
  have here : stop.place = (pos s : Int) := by simpa using List.find?_some found
  obtain ⟨before, after, rfl⟩ := List.append_of_mem (List.mem_of_find?_eq_some found)
  refine ⟨here, before, after, rfl, fun other mem => ?_⟩
  rw [← here]
  exact (List.pairwise_append.1 sorted).2.2 other mem stop List.mem_cons_self

theorem loop_eq_scan {limit : Nat} {stops : List (Stop σ)} (sorted : stops.Pairwise (·.place < ·.place))
    (still : ∀ stop ∈ stops, stop.Still) {fuel : Nat} {s : σ} (enough : limit ≤ fuel + pos s) :
    loop limit stops fuel s = scan limit stops s := by
  have done {s : σ} (reached : limit ≤ pos s) : scan limit stops s = s := by
    clear sorted still enough
    induction stops with
    | nil => rw [scan, Nat.max_eq_left reached, move_pos]
    | cons stop stops ih => rw [scan, if_neg (by omega), ih]
  induction fuel generalizing s with
  | zero => rw [loop, done (by omega)]
  | succ fuel ih =>
    rw [loop]
    by_cases more : pos s < limit
    · rw [if_pos more]
      cases found : stops.find? fun stop => stop.place = (pos s : Int) with
      | none =>
        have free : ∀ stop ∈ stops, stop.place ≠ pos s := by simpa using List.find?_eq_none.1 found
        dsimp only
        rw [ih (by rw [pos_move]; omega), scan_skip more free]
      | some stop =>
        obtain ⟨here, before, after, rfl, behind⟩ := find_split found sorted
        have inStops : stop ∈ before ++ stop :: after := List.mem_append_right _ List.mem_cons_self
        rw [scan_behind behind, scan, if_pos ⟨by omega, by omega⟩, here, Int.toNat_natCast, move_pos]
        dsimp only
        cases acted : stop.act s with
        | leave s' => rfl
        | go s' =>
          have kept := still stop inStops s s' acted
          have passed : ∀ other ∈ before ++ [stop], other.place < pos (move (pos s' + 1) s') := by
            intro other mem
            rw [pos_move, kept]
            rcases List.mem_append.1 mem with mem | mem
            · have := behind other mem
              omega
            · rw [List.mem_singleton.1 mem, here]
              omega
          dsimp only
          rw [ih (by rw [pos_move, kept]; omega), List.append_cons, scan_behind passed]
    · rw [if_neg more, done (by omega)]

end Loops

end Scan
