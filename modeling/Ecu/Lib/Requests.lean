import Mathlib.Logic.Function.Basic
import Mathlib.Tactic.SplitIfs

/-!
# Requests until they are carried out

A request gives a value for a key; a later one for the same key takes its place, and it is outstanding until it is
carried out with its value. What a system promises of the outstanding requests is shown of each step (`Reach.rule`).
-/

namespace Requests

variable {κ ν : Type} [DecidableEq κ] [DecidableEq ν]

inductive Event (κ ν : Type) where
  | post (key : κ) (value : ν)
  | serve (key : κ) (value : ν)
deriving DecidableEq

/-- The outstanding value of each key. -/
abbrev Outstanding (κ ν : Type) := κ → Option ν

def Event.apply (out : Outstanding κ ν) : Event κ ν → Outstanding κ ν
  | post key value => Function.update out key (some value)
  | serve key value => if out key = some value then Function.update out key none else out

/-- What is outstanding after some events. -/
def after (out : Outstanding κ ν) (events : List (Event κ ν)) : Outstanding κ ν :=
  events.foldl Event.apply out

@[simp] theorem after_nil (out : Outstanding κ ν) : after out [] = out :=
  rfl

theorem after_cons (out : Outstanding κ ν) (event : Event κ ν) (events : List (Event κ ν)) :
    after out (event :: events) = after (event.apply out) events :=
  rfl

theorem after_append (out : Outstanding κ ν) (first second : List (Event κ ν)) :
    after out (first ++ second) = after (after out first) second :=
  List.foldl_append

theorem apply_post_self (out : Outstanding κ ν) (key : κ) (value : ν) :
    (Event.post key value).apply out key = some value :=
  Function.update_self ..

theorem apply_post_of_ne (out : Outstanding κ ν) {key other : κ} (value : ν) (ne : other ≠ key) :
    (Event.post key value).apply out other = out other :=
  Function.update_of_ne ne ..

theorem apply_serve_of_ne (out : Outstanding κ ν) {key other : κ} (value : ν) (ne : other ≠ key) :
    (Event.serve key value).apply out other = out other := by
  rw [Event.apply]
  split_ifs
  · exact Function.update_of_ne ne ..
  · rfl

/-- After some requests the outstanding value of a key is one of theirs, or there is none for the key among them. -/
theorem after_posts (out : Outstanding κ ν) (items : List (κ × ν)) (key : κ) :
    (∃ value, (key, value) ∈ items ∧ after out (items.map fun r => .post r.1 r.2) key = some value) ∨
      (∀ value, (key, value) ∉ items) ∧ after out (items.map fun r => .post r.1 r.2) key = out key := by
  induction items generalizing out with
  | nil => exact .inr ⟨fun _ => List.not_mem_nil, rfl⟩
  | cons r items ih =>
    rw [List.map_cons, after_cons]
    rcases ih ((Event.post r.1 r.2).apply out) with ⟨value, mem, same⟩ | ⟨none, same⟩
    · exact .inl ⟨value, List.mem_cons_of_mem r mem, same⟩
    · by_cases own : r.1 = key
      · subst own
        rw [same]
        exact .inl ⟨r.2, List.mem_cons_self, apply_post_self out r.1 r.2⟩
      · rw [same, apply_post_of_ne out r.2 (Ne.symm own)]
        refine .inr ⟨fun value mem => ?_, rfl⟩
        rcases List.mem_cons.1 mem with rfl | mem
        · exact own rfl
        · exact none value mem

/-- Carried out with its value, a request is no longer outstanding. -/
theorem apply_serve_self {out : Outstanding κ ν} {key : κ} {value : ν} (asked : out key = some value) :
    (Event.serve key value).apply out key = none := by
  rw [Event.apply, if_pos asked]
  exact Function.update_self ..

/-- What is still outstanding after a service was so before. -/
theorem apply_serve_some {out : Outstanding κ ν} {key other : κ} {value held : ν}
    (still : (Event.serve key value).apply out other = some held) : out other = some held := by
  by_cases same : other = key
  · subst same
    rw [Event.apply] at still
    split_ifs at still
    · rw [Function.update_self] at still
      cases still
    · exact still
  · rwa [apply_serve_of_ne out value same] at still

section Reach

variable {σ : Type} (Init : σ → Prop) (Step : σ → Outstanding κ ν → List (Event κ ν) → σ → Prop)

/-- The states of a run, each with what is outstanding in it. -/
inductive Reach : σ → Outstanding κ ν → Prop
  | start {s : σ} (init : Init s) : Reach s fun _ => none
  | next {s s' : σ} {out : Outstanding κ ν} {events : List (Event κ ν)} (before : Reach s out)
    (step : Step s out events s') : Reach s' (after out events)

variable {Init Step}

theorem Reach.rule (Inv : σ → Outstanding κ ν → Prop) (init : ∀ {s}, Init s → Inv s fun _ => none)
    (step : ∀ {s s' out events}, Inv s out → Step s out events s' → Inv s' (after out events)) {s : σ}
    {out : Outstanding κ ν} (reach : Reach Init Step s out) : Inv s out := by
  induction reach with
  | start is => exact init is
  | next _ made ih => exact step ih made

end Reach

end Requests
