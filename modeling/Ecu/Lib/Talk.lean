import Mathlib.Data.List.Basic

/-!
# Talks with a device

A talk sends frames and waits for replies. Its run on some replies gives what was sent and received, in order, and the
result with the replies that are left; a run that is still waiting when the replies end has no result. A request that is
sent again until a reply is accepted is `retry`, and `Heard` says which replies it takes (`run_retry`, `heard_of_run`).
-/

namespace Talks

inductive Event (φ ρ : Type) where
  | sent (frame : φ)
  | received (reply : ρ)
deriving DecidableEq

structure Talk (φ ρ α : Type) where
  run : List ρ → List (Event φ ρ) × Option (α × List ρ)

namespace Talk

variable {φ ρ α β : Type}

/-- The second talk takes the replies that the first one leaves. -/
def andThen (first : Talk φ ρ α) (second : α → Talk φ ρ β) : Talk φ ρ β where
  run replies :=
    match first.run replies with
    | (events, none) => (events, none)
    | (events, some (a, rest)) => (events ++ ((second a).run rest).1, ((second a).run rest).2)

instance : Monad (Talk φ ρ) where
  pure a := ⟨fun replies => ([], some (a, replies))⟩
  bind := andThen

/-- Sends frames that are not answered. -/
def tell (frames : List φ) : Talk φ ρ Unit where
  run replies := (frames.map .sent, some ((), replies))

/-- Sends a frame and waits for the reply. -/
def ask (frame : φ) : Talk φ ρ ρ where
  run
    | [] => ([.sent frame], none)
    | reply :: replies => ([.sent frame, .received reply], some (reply, replies))

/-- Sends a frame up to `n` times, until a reply is accepted. -/
def retry (frame : φ) (judge : ρ → Option α) : Nat → Talk φ ρ (Option α)
  | 0 => pure none
  | n + 1 => do
    let reply ← ask frame
    match judge reply with
    | some a => return some a
    | none => retry frame judge n

/-- Each frame and its reply. -/
def exchanges : List φ → List ρ → List (Event φ ρ)
  | [], _ => []
  | frame :: _, [] => [.sent frame]
  | frame :: frames, reply :: replies => .sent frame :: .received reply :: exchanges frames replies

/-- A talk that is given by its frames, each of which waits for a reply, and its result. -/
def script (frames : List ρ → List φ × Option α) : Talk φ ρ α where
  run replies :=
    (exchanges (frames replies).1 replies, (frames replies).2.map fun a => (a, replies.drop (frames replies).1.length))

/-! ## Runs -/

@[simp] theorem run_pure (a : α) (replies : List ρ) : (pure a : Talk φ ρ α).run replies = ([], some (a, replies)) :=
  rfl

theorem run_bind (first : Talk φ ρ α) (second : α → Talk φ ρ β) (replies : List ρ) :
    (first >>= second).run replies =
      match first.run replies with
      | (events, none) => (events, none)
      | (events, some (a, rest)) => (events ++ ((second a).run rest).1, ((second a).run rest).2) :=
  rfl

section Bind

variable {first : Talk φ ρ α} {replies : List ρ} {events : List (Event φ ρ)}

theorem run_bind_none (waits : first.run replies = (events, none)) (second : α → Talk φ ρ β) :
    (first >>= second).run replies = (events, none) := by
  rw [run_bind, waits]

theorem run_bind_some {a : α} {rest : List ρ} (ends : first.run replies = (events, some (a, rest)))
    (second : α → Talk φ ρ β) :
    (first >>= second).run replies = (events ++ ((second a).run rest).1, ((second a).run rest).2) := by
  rw [run_bind, ends]

end Bind

theorem run_ask_bind (frame : φ) (second : ρ → Talk φ ρ β) (reply : ρ) (replies : List ρ) :
    (ask frame >>= second).run (reply :: replies) =
      (.sent frame :: .received reply :: ((second reply).run replies).1, ((second reply).run replies).2) :=
  rfl

/-- A run of a sequence is a run of its first part that waits, or runs of both. -/
theorem run_bind_cases (first : Talk φ ρ α) (second : α → Talk φ ρ β) (replies : List ρ) :
    (∃ events, first.run replies = (events, none) ∧ (first >>= second).run replies = (events, none)) ∨
      ∃ events a rest, first.run replies = (events, some (a, rest)) ∧
        (first >>= second).run replies = (events ++ ((second a).run rest).1, ((second a).run rest).2) := by
  rcases whole : first.run replies with ⟨events, _ | ⟨a, rest⟩⟩
  · exact .inl ⟨events, rfl, run_bind_none whole second⟩
  · exact .inr ⟨events, a, rest, rfl, run_bind_some whole second⟩

/-- A sequence that ends has ended in both parts. -/
theorem run_bind_ends {first : Talk φ ρ α} {second : α → Talk φ ρ β} {replies rest : List ρ} {events : List (Event φ ρ)}
    {b : β} (ends : (first >>= second).run replies = (events, some (b, rest))) :
    ∃ before a middle later, first.run replies = (before, some (a, middle)) ∧
      (second a).run middle = (later, some (b, rest)) ∧ events = before ++ later := by
  rcases run_bind_cases first second replies with ⟨before, -, whole⟩ | ⟨before, a, middle, now, whole⟩
  · rw [ends] at whole
    cases whole
  · rw [ends] at whole
    obtain ⟨rfl, out⟩ := Prod.mk.inj whole
    exact ⟨before, a, middle, _, now, Prod.ext rfl out.symm, rfl⟩

/-! ## Requests that are sent again -/

/-- The replies that a request takes which is sent up to `n` times. -/
inductive Heard (judge : ρ → Option α) : Nat → List ρ → Option α → Prop
  | never : Heard judge 0 [] none
  | now {n : Nat} {reply : ρ} {a : α} (accepted : judge reply = some a) : Heard judge (n + 1) [reply] (some a)
  | later {n : Nat} {reply : ρ} {heard : List ρ} {out : Option α} (refused : judge reply = none)
    (next : Heard judge n heard out) : Heard judge (n + 1) (reply :: heard) out

/-- The events of such a request. -/
def repeated (frame : φ) (heard : List ρ) : List (Event φ ρ) :=
  heard.flatMap fun reply => [.sent frame, .received reply]

variable {frame : φ} {judge : ρ → Option α} {n : Nat}

theorem run_retry {heard : List ρ} {out : Option α} (hears : Heard judge n heard out) (rest : List ρ) :
    (retry frame judge n).run (heard ++ rest) = (repeated frame heard, some (out, rest)) := by
  induction hears with
  | never => rfl
  | @now n reply a accepted =>
    rw [retry, List.cons_append, run_ask_bind, accepted]
    rfl
  | @later n reply heard out refused next ih =>
    rw [retry, List.cons_append, run_ask_bind, refused]
    dsimp only
    rw [ih]
    rfl

/-- A request that ends has heard some replies. -/
theorem heard_of_run {replies rest : List ρ} {events : List (Event φ ρ)} {out : Option α}
    (ends : (retry frame judge n).run replies = (events, some (out, rest))) :
    ∃ heard, replies = heard ++ rest ∧ Heard judge n heard out ∧ events = repeated frame heard := by
  induction n generalizing replies events with
  | zero =>
    rw [retry, run_pure] at ends
    obtain ⟨rfl, same⟩ := Prod.mk.inj ends
    obtain ⟨rfl, rfl⟩ := Prod.mk.inj (Option.some.inj same)
    exact ⟨[], rfl, .never, rfl⟩
  | succ n ih =>
    cases replies with
    | nil => cases ends
    | cons reply replies =>
      rw [retry, run_ask_bind] at ends
      cases judged : judge reply with
      | some a =>
        rw [judged] at ends
        obtain ⟨rfl, same⟩ := Prod.mk.inj ends
        obtain ⟨rfl, rfl⟩ := Prod.mk.inj (Option.some.inj same)
        exact ⟨[reply], rfl, .now judged, rfl⟩
      | none =>
        rw [judged] at ends
        dsimp only at ends
        obtain ⟨rfl, same⟩ := Prod.mk.inj ends
        obtain ⟨heard, rfl, hears, events⟩ := ih (Prod.ext rfl same)
        exact ⟨reply :: heard, rfl, .later judged hears, congrArg (.sent frame :: .received reply :: ·) events⟩

theorem mem_repeated_sent {heard : List ρ} {other : φ} (mem : .sent other ∈ repeated frame heard) : other = frame := by
  obtain ⟨reply, -, inside⟩ := List.mem_flatMap.1 mem
  simpa using inside

theorem mem_repeated_received {heard : List ρ} {reply : ρ} :
    .received reply ∈ repeated frame heard ↔ reply ∈ heard := by
  simp [repeated]

theorem Heard.mem {heard : List ρ} {out : Option α} (hears : Heard judge n heard out) {reply : ρ}
    (mem : reply ∈ heard) :
    judge reply = none ∨ judge reply = out := by
  induction hears with
  | never => exact absurd mem List.not_mem_nil
  | now accepted =>
    rcases List.mem_singleton.1 mem with rfl
    exact .inr accepted
  | later refused next ih =>
    rcases List.mem_cons.1 mem with rfl | mem
    · exact .inl refused
    · exact ih mem

/-! ## Frames that are not sent -/

/-- No frame with the property is sent, whatever the replies are. -/
def Never (p : φ → Prop) (talk : Talk φ ρ α) : Prop :=
  ∀ replies frame, .sent frame ∈ (talk.run replies).1 → ¬ p frame

variable {p : φ → Prop}

theorem Never.pure (a : α) : Never p (Pure.pure a : Talk φ ρ α) :=
  fun _ _ mem => absurd mem List.not_mem_nil

theorem Never.bind {first : Talk φ ρ α} {second : α → Talk φ ρ β} (now : Never p first)
    (later : ∀ a, Never p (second a)) : Never p (first >>= second) := by
  intro replies frame mem
  rcases run_bind_cases first second replies with ⟨events, waits, whole⟩ | ⟨events, a, rest, ends, whole⟩
  · rw [whole] at mem
    exact now replies frame (by rwa [waits])
  · rw [whole] at mem
    rcases List.mem_append.1 mem with inside | inside
    · exact now replies frame (by rwa [ends])
    · exact later a rest frame inside

theorem Never.ask (other : ¬ p frame) : Never p (ask frame : Talk φ ρ ρ) := by
  intro replies sent mem
  cases replies with
  | nil =>
    rcases List.mem_singleton.1 mem with ⟨⟩
    exact other
  | cons reply replies =>
    simp only [Talk.ask, List.mem_cons, Event.sent.injEq, reduceCtorEq, List.not_mem_nil, or_false] at mem
    exact mem ▸ other

theorem Never.retry (other : ¬ p frame) : Never p (retry frame judge n) := by
  induction n with
  | zero => exact .pure none
  | succ n ih =>
    refine .bind (.ask other) fun reply => ?_
    cases judge reply with
    | none => exact ih
    | some a => exact .pure (some a)

theorem Never.tell {frames : List φ} (others : ∀ frame ∈ frames, ¬ p frame) :
    Never p (tell frames : Talk φ ρ Unit) := by
  intro replies frame mem
  obtain ⟨sent, inside, same⟩ := List.mem_map.1 mem
  exact Event.sent.inj same ▸ others sent inside

theorem mem_exchanges_sent {frames : List φ} {replies : List ρ} {frame : φ}
    (mem : .sent frame ∈ exchanges frames replies) : frame ∈ frames := by
  induction frames generalizing replies with
  | nil => exact absurd mem List.not_mem_nil
  | cons first frames ih =>
    cases replies with
    | nil =>
      rcases List.mem_singleton.1 mem with ⟨⟩
      exact List.mem_cons_self
    | cons reply replies =>
      simp only [exchanges, List.mem_cons, Event.sent.injEq, reduceCtorEq, false_or] at mem
      exact List.mem_cons.2 (mem.imp_right ih)

theorem mem_exchanges_received {frames : List φ} {replies : List ρ} {reply : ρ} :
    .received reply ∈ exchanges frames replies ↔ reply ∈ replies.take frames.length := by
  induction frames generalizing replies with
  | nil => simp [exchanges]
  | cons first frames ih =>
    cases replies with
    | nil => simp [exchanges]
    | cons other replies => simp [exchanges, ih]

theorem Never.script {frames : List ρ → List φ × Option α}
    (others : ∀ replies, ∀ frame ∈ (frames replies).1, ¬ p frame) :
    Never p (script frames) :=
  fun replies frame mem => others replies frame (mem_exchanges_sent mem)

/-- The talk sends the frame first. -/
def Begins (frame : φ) (talk : Talk φ ρ α) : Prop :=
  ∀ replies, ∃ later, (talk.run replies).1 = .sent frame :: later

theorem Begins.bind {first : Talk φ ρ α} (begins : Begins frame first) (second : α → Talk φ ρ β) :
    Begins frame (first >>= second) := by
  intro replies
  obtain ⟨later, same⟩ := begins replies
  rcases run_bind_cases first second replies with ⟨events, waits, whole⟩ | ⟨events, a, rest, ends, whole⟩
  · exact ⟨later, by rw [whole, ← same, waits]⟩
  · refine ⟨later ++ ((second a).run rest).1, ?_⟩
    have begun : events = .sent frame :: later := by rw [← same, ends]
    rw [whole, begun]
    rfl

theorem Begins.ask (frame : φ) : Begins frame (ask frame : Talk φ ρ ρ) := by
  intro replies
  cases replies with
  | nil => exact ⟨[], rfl⟩
  | cons reply replies => exact ⟨[.received reply], rfl⟩

theorem Begins.retry (frame : φ) (judge : ρ → Option α) (n : Nat) : Begins frame (retry frame judge (n + 1)) :=
  (Begins.ask frame).bind _

end Talk

/-! ## What comes before what -/

variable {ε : Type}

/-- Each event of the second kind has one of the first kind before it. -/
def Precedes (p q : ε → Prop) (events : List ε) : Prop :=
  ∀ before event after, events = before ++ event :: after → q event → ∃ earlier ∈ before, p earlier

variable {p q : ε → Prop} {first : List ε}

theorem precedes_of_none (none : ∀ event ∈ first, ¬ q event) : Precedes p q first := by
  rintro before event after rfl second
  exact absurd second (none event (by simp))

theorem precedes_append {event : ε} (mem : event ∈ first) (is : p event) (none : ∀ event ∈ first, ¬ q event)
    (rest : List ε) : Precedes p q (first ++ rest) := by
  intro before other after whole second
  rcases List.append_eq_append_iff.1 whole with ⟨middle, rfl, -⟩ | ⟨middle, rfl, same⟩
  · exact ⟨event, List.mem_append_left middle mem, is⟩
  · cases middle with
    | nil =>
      rw [List.append_nil] at mem
      exact ⟨event, mem, is⟩
    | cons head middle =>
      obtain ⟨rfl, -⟩ := List.cons.inj same
      exact absurd second (none other (by simp))

theorem not_precedes {event : ε} (none : ∀ event ∈ first, ¬ p event) (second : q event) (rest : List ε) :
    ¬ Precedes p q (first ++ event :: rest) := by
  intro ordered
  obtain ⟨earlier, mem, is⟩ := ordered first event rest rfl second
  exact none earlier mem is

end Talks
