import IcuTransport.Library.Loop
import Mathlib.Data.List.SplitBy

/-!
# Computations that leave a trace

A traced computation gives a value and the events it emitted on the way, in order. Forgetting the
events gives back a plain computation, so a traced program refines a plain one when the values
agree.

A monitor watches a trace: it is a state and a step that may refuse an event. A trace is accepted
from a state when no event is refused; acceptance is read off the parts of a trace
(`watch_append`). A computation is guarded when the monitor accepts its events and ends in the
state that its value gives (`Guarded`), and guards compose along the computation (`Guarded.bind`).
A loop whose turns lead the monitor back to where it was shows it only its last turn
(`watch_runTraced`).

Where every part of a trace starts with a mark and has no other, the parts can be read off the trace
(`cutAtMarks_flatten`).
-/

set_option autoImplicit false

namespace Tracing

universe u v w

/-- A value, and the events that were emitted before it was there. -/
structure Traced (ε : Type u) (α : Type v) where
  value : α
  events : List ε

namespace Traced

variable {ε : Type u} {α β : Type v}

/-- Emit one event. -/
def emit (event : ε) : Traced ε Unit := ⟨(), [event]⟩

instance : Monad (Traced ε) where
  pure value := ⟨value, []⟩
  bind first next := ⟨(next first.value).value, first.events ++ (next first.value).events⟩

@[simp] theorem value_pure (value : α) : (pure value : Traced ε α).value = value := rfl

@[simp] theorem events_pure (value : α) : (pure value : Traced ε α).events = [] := rfl

@[simp] theorem value_bind (first : Traced ε α) (next : α → Traced ε β) :
    (first >>= next).value = (next first.value).value := rfl

@[simp] theorem events_bind (first : Traced ε α) (next : α → Traced ε β) :
    (first >>= next).events = first.events ++ (next first.value).events := rfl

@[simp] theorem events_emit (event : ε) : (emit event).events = [event] := rfl

/-- The computation with its events seen in another way. -/
def mapEvents {δ : Type w} (view : ε → δ) (computation : Traced ε α) : Traced δ α :=
  ⟨computation.value, computation.events.map view⟩

@[simp] theorem value_mapEvents {δ : Type w} (view : ε → δ) (computation : Traced ε α) :
    (computation.mapEvents view).value = computation.value := rfl

@[simp] theorem events_mapEvents {δ : Type w} (view : ε → δ) (computation : Traced ε α) :
    (computation.mapEvents view).events = computation.events.map view := rfl

theorem mapEvents_bind {δ : Type w} (view : ε → δ) (first : Traced ε α) (next : α → Traced ε β) :
    (first >>= next).mapEvents view =
      first.mapEvents view >>= fun value => (next value).mapEvents view := by
  show Traced.mk _ _ = Traced.mk _ _
  rw [events_bind, List.map_append]
  rfl

/-- Go on with the value of an attempt, unless it failed. -/
def andThen (first : Traced ε (Option α)) (next : α → Traced ε (Option β)) :
    Traced ε (Option β) := do
  match ← first with
  | none => pure none
  | some value => next value

theorem value_andThen (first : Traced ε (Option α)) (next : α → Traced ε (Option β)) :
    (first.andThen next).value = first.value.bind fun value => (next value).value := by
  unfold andThen
  rw [value_bind]
  cases first.value with
  | none => rfl
  | some value => rfl

/-- The events of an attempt and, where it succeeded, of what follows. -/
theorem mem_events_andThen {first : Traced ε (Option α)} {next : α → Traced ε (Option β)}
    {event : ε} :
    event ∈ (first.andThen next).events ↔
      event ∈ first.events ∨ ∃ value, first.value = some value ∧ event ∈ (next value).events := by
  unfold andThen
  rw [events_bind, List.mem_append]
  cases first.value with
  | none => simp
  | some value => simp

/-! ### What may be emitted -/

section Emits

variable {admits : ε → Prop}

/-- Every event of a computation is admitted. -/
def Emits (admits : ε → Prop) (computation : Traced ε α) : Prop :=
  ∀ event ∈ computation.events, admits event

theorem Emits.pure (value : α) : Emits admits (Pure.pure value : Traced ε α) := by
  intro event member
  cases member

theorem Emits.emit {event : ε} (admitted : admits event) : Emits admits (Traced.emit event) := by
  intro other member
  rw [List.mem_singleton.mp member]
  exact admitted

theorem Emits.bind {first : Traced ε α} {next : α → Traced ε β} (early : Emits admits first)
    (late : Emits admits (next first.value)) : Emits admits (first >>= next) := by
  intro event member
  rw [events_bind, List.mem_append] at member
  rcases member with before | after
  · exact early event before
  · exact late event after

/-- An admitted event, and what follows it. -/
theorem Emits.emit_bind {α : Type} {event : ε} {next : Unit → Traced ε α} (admitted : admits event)
    (late : Emits admits (next ())) : Emits admits (Traced.emit event >>= next) :=
  (Emits.emit admitted).bind late

theorem Emits.andThen {first : Traced ε (Option α)} {next : α → Traced ε (Option β)}
    (early : Emits admits first)
    (late : ∀ value, first.value = some value → Emits admits (next value)) :
    Emits admits (first.andThen next) := by
  intro event member
  rcases mem_events_andThen.mp member with before | ⟨value, found, after⟩
  · exact early event before
  · exact late value found event after

end Emits

/-! ### Rounds over a list -/

section Rounds

variable {ι : Type w} {round : α → ι → Traced ε (Option α)}

/-- One round for each item, as long as none of them gives up. -/
def foldRounds (round : α → ι → Traced ε (Option α)) : α → List ι → Traced ε (Option α)
  | value, [] => pure (some value)
  | value, item :: rest => (round value item).andThen fun later => foldRounds round later rest

theorem value_foldRounds_cons (value : α) (item : ι) (rest : List ι) :
    (foldRounds round value (item :: rest)).value =
      (round value item).value.bind fun later => (foldRounds round later rest).value :=
  value_andThen _ _

/-- **What every round keeps, all rounds keep.** A round that starts from a kept value emits
admitted events and leaves a kept value, if it leaves one. -/
theorem foldRounds_induction {keeps : α → Prop} {admits : ε → Prop}
    (step : ∀ value item, keeps value →
      Emits admits (round value item) ∧
        ∀ later, (round value item).value = some later → keeps later)
    {start : α} (begins : keeps start) (items : List ι) :
    Emits admits (foldRounds round start items) ∧
      ∀ last, (foldRounds round start items).value = some last → keeps last := by
  induction items generalizing start with
  | nil =>
      constructor
      · exact Emits.pure _
      · intro last same
        obtain rfl := Option.some.inj same
        exact begins
  | cons item rest ih =>
      obtain ⟨admitted, kept⟩ := step start item begins
      constructor
      · exact admitted.andThen fun later found => (ih (kept later found)).1
      · intro last same
        rw [value_foldRounds_cons] at same
        obtain ⟨later, found, same⟩ := Option.bind_eq_some_iff.mp same
        exact (ih (kept later found)).2 last same

end Rounds

end Traced

/-! ## Monitors -/

section Monitors

variable {σ : Type w} {ε : Type u} {α β : Type v} {step : σ → ε → Option σ}

/-- The state of a monitor after a trace, unless it refuses an event. -/
def watch (step : σ → ε → Option σ) (state : σ) (events : List ε) : Option σ :=
  events.foldlM step state

@[simp] theorem watch_nil (state : σ) : watch step state [] = some state := rfl

@[simp] theorem watch_cons (state : σ) (event : ε) (rest : List ε) :
    watch step state (event :: rest) = (step state event).bind fun next => watch step next rest :=
  rfl

theorem watch_append (state : σ) (first second : List ε) :
    watch step state (first ++ second) =
      (watch step state first).bind fun next => watch step next second :=
  List.foldlM_append

/-- **An accepted trace is accepted piece by piece.** -/
theorem watch_split {state last : σ} {before after : List ε}
    (accepted : watch step state (before ++ after) = some last) :
    ∃ middle, watch step state before = some middle ∧ watch step middle after = some last := by
  rw [watch_append] at accepted
  exact Option.bind_eq_some_iff.mp accepted

/-- Two monitors side by side. -/
def both {τ : Type w} (step : σ → ε → Option σ) (other : τ → ε → Option τ) (states : σ × τ)
    (event : ε) : Option (σ × τ) :=
  (step states.1 event).bind fun first => (other states.2 event).map fun second => (first, second)

/-- **Two monitors accept what each of them accepts.** -/
theorem watch_both {τ : Type w} {other : τ → ε → Option τ} {states later : σ × τ}
    {events : List ε} :
    watch (both step other) states events = some later ↔
      watch step states.1 events = some later.1 ∧ watch other states.2 events = some later.2 := by
  induction events generalizing states with
  | nil =>
      simp only [watch_nil, Option.some.injEq]
      exact Prod.ext_iff
  | cons event rest ih =>
      simp only [watch_cons, both, Option.bind_eq_some_iff, Option.map_eq_some_iff]
      constructor
      · rintro ⟨_, ⟨first, accepted, second, accepted', rfl⟩, watched⟩
        obtain ⟨left, right⟩ := ih.mp watched
        exact ⟨⟨first, accepted, left⟩, second, accepted', right⟩
      · rintro ⟨⟨first, accepted, left⟩, second, accepted', right⟩
        exact ⟨(first, second), ⟨first, accepted, second, accepted', rfl⟩, ih.mpr ⟨left, right⟩⟩

/-- The monitor accepts the events of a computation, and ends in the state that its value gives. -/
def Guarded (step : σ → ε → Option σ) (before : σ) (computation : Traced ε α) (after : α → σ) :
    Prop :=
  watch step before computation.events = some (after computation.value)

theorem Guarded.pure {state : σ} {value : α} {after : α → σ} (same : after value = state) :
    Guarded step state (Pure.pure value : Traced ε α) after := by
  rw [Guarded, Traced.events_pure, watch_nil, Traced.value_pure, same]

theorem Guarded.emit {before : σ} {event : ε} {after : Unit → σ}
    (accepted : step before event = some (after ())) :
    Guarded step before (Traced.emit event) after := by
  rw [Guarded, Traced.events_emit, watch_cons, accepted, Option.bind_some, watch_nil]

/-- **Guards compose**: what follows starts in the state the first part ends in. -/
theorem Guarded.bind {before : σ} {first : Traced ε α} {middle : α → σ} {next : α → Traced ε β}
    {after : β → σ} (guarded : Guarded step before first middle)
    (follows : Guarded step (middle first.value) (next first.value) after) :
    Guarded step before (first >>= next) after := by
  rw [Guarded, Traced.events_bind, watch_append, guarded, Option.bind_some, Traced.value_bind]
  exact follows

/-- An event that the monitor accepts, and what follows it. -/
theorem Guarded.emit_bind {α : Type} {before middle : σ} {event : ε} {next : Unit → Traced ε α}
    {after : α → σ} (accepted : step before event = some middle)
    (follows : Guarded step middle (next ()) after) :
    Guarded step before (Traced.emit event >>= next) after := by
  rw [Guarded, Traced.events_bind, Traced.events_emit, List.singleton_append, watch_cons, accepted,
    Option.bind_some]
  exact follows

end Monitors

/-! ## Loops -/

section Loops

open TurnLoop

variable {σ : Type v} {ρ : Type v} {ε : Type u} {μ : Type w}

/-- A run of a loop whose turns leave a trace. -/
def runTraced (turn : σ → Traced ε (Turn σ ρ)) : ℕ → σ → Option (Traced ε (List σ × ρ))
  | 0, _ => none
  | fuel + 1, state =>
      match (turn state).value with
      | .finished result => some ⟨([state], result), (turn state).events⟩
      | .next later =>
          (runTraced turn fuel later).map fun rest =>
            ⟨(state :: rest.value.1, rest.value.2), (turn state).events ++ rest.events⟩

/-- **A traced run is the plain run**, with the events of the turns it makes. -/
theorem runTraced_eq (turn : σ → Traced ε (Turn σ ρ)) (fuel : ℕ) (state : σ) :
    runTraced turn fuel state =
      (run (fun visit => (turn visit).value) fuel state).map fun (visits, result) =>
        ⟨(visits, result), visits.flatMap fun visit => (turn visit).events⟩ := by
  induction fuel generalizing state with
  | zero => rfl
  | succ fuel ih =>
      simp only [runTraced, run]
      cases (turn state).value with
      | finished result => simp
      | next later =>
          simp only [ih later, Option.map_map]
          rfl

/-- **What a monitor sees of a loop is its last turn**, when every turn that goes on leads it from
where it is at this turn to where it is at the next. -/
theorem watch_runTraced_along {step : μ → ε → Option μ} {turn : σ → Traced ε (Turn σ ρ)}
    (idle : σ → μ)
    (goesOn : ∀ state later, (turn state).value = .next later →
      watch step (idle state) (turn state).events = some (idle later))
    {fuel : ℕ} {state : σ} {ran : Traced ε (List σ × ρ)}
    (returned : runTraced turn fuel state = some ran) :
    ∃ last, (turn last).value = .finished ran.value.2 ∧
      ran.value.1[ran.value.1.length - 1]? = some last ∧
      watch step (idle state) ran.events = watch step (idle last) (turn last).events := by
  induction fuel generalizing state ran with
  | zero => cases returned
  | succ fuel ih =>
      cases outcome : (turn state).value with
      | finished result =>
          simp only [runTraced, outcome, Option.some.injEq] at returned
          subst returned
          exact ⟨state, outcome, rfl, rfl⟩
      | next later =>
          simp only [runTraced, outcome, Option.map_eq_some_iff] at returned
          obtain ⟨rest, continued, rfl⟩ := returned
          obtain ⟨last, finished, atEnd, seen⟩ := ih continued
          refine ⟨last, finished, ?_, ?_⟩
          · have bound := (List.getElem?_eq_some_iff.mp atEnd).1
            have length : rest.value.1.length = rest.value.1.length - 1 + 1 := by omega
            rw [List.length_cons, Nat.add_sub_cancel, length, List.getElem?_cons_succ]
            exact atEnd
          · rw [watch_append, goesOn state later outcome, Option.bind_some]
            exact seen

/-- The same for a monitor that every turn that goes on leads back to where it was. -/
theorem watch_runTraced {step : μ → ε → Option μ} {idle : μ} {turn : σ → Traced ε (Turn σ ρ)}
    (goesOn : ∀ state later, (turn state).value = .next later →
      watch step idle (turn state).events = some idle)
    {fuel : ℕ} {state : σ} {ran : Traced ε (List σ × ρ)}
    (returned : runTraced turn fuel state = some ran) :
    ∃ last, (turn last).value = .finished ran.value.2 ∧
      ran.value.1[ran.value.1.length - 1]? = some last ∧
      watch step idle ran.events = watch step idle (turn last).events :=
  watch_runTraced_along (fun _ => idle) goesOn returned

end Loops

/-! ## Marks -/

section Marks

variable {ε : Type u} {isMark : ε → Bool}

/-- A trace, cut before every mark. -/
def cutAtMarks (isMark : ε → Bool) (events : List ε) : List (List ε) :=
  events.splitBy fun _ next => !isMark next

/-- A part of a trace that starts with a mark and has no other. -/
def MarkedOnce (isMark : ε → Bool) (events : List ε) : Prop :=
  ∃ mark rest, events = mark :: rest ∧ isMark mark = true ∧ ∀ event ∈ rest, isMark event = false

theorem isChain_of_unmarked {mark : ε} {rest : List ε}
    (plain : ∀ event ∈ rest, isMark event = false) :
    (mark :: rest).IsChain fun _ next => !isMark next := by
  induction rest generalizing mark with
  | nil => exact List.isChain_singleton mark
  | cons event rest ih =>
      refine (ih fun other member => plain other (List.mem_cons_of_mem _ member)).cons_cons ?_
      rw [plain event List.mem_cons_self]
      rfl

/-- **The marks tell where the parts of a trace begin.** -/
theorem cutAtMarks_flatten {parts : List (List ε)}
    (marked : ∀ part ∈ parts, MarkedOnce isMark part) :
    cutAtMarks isMark parts.flatten = parts := by
  have filled : ∀ part ∈ parts, part ≠ [] := by
    intro part member
    obtain ⟨mark, rest, rfl, _⟩ := marked part member
    exact List.cons_ne_nil _ _
  refine List.splitBy_flatten (fun member => filled [] member rfl) ?_ ?_
  · intro part member
    obtain ⟨mark, rest, rfl, _, plain⟩ := marked part member
    exact isChain_of_unmarked plain
  · refine (List.pairwise_of_forall_mem_list ?_).isChain
    intro first firstMember second secondMember
    refine ⟨filled first firstMember, filled second secondMember, ?_⟩
    obtain ⟨mark, rest, rfl, marks, _⟩ := marked second secondMember
    rw [List.head_cons, marks]
    rfl

end Marks

/-! ## Cuts -/

/-- Where two traces that follow one another are cut: in the first one, or in the second one. -/
theorem prefix_append_cases {ε : Type*} {part first second : List ε}
    (cut : part <+: first ++ second) :
    part <+: first ∨ ∃ more, part = first ++ more ∧ more <+: second := by
  rcases List.prefix_or_prefix_of_prefix cut (List.prefix_append first second) with here | there
  · exact Or.inl here
  · obtain ⟨more, rfl⟩ := there
    exact Or.inr ⟨more, rfl, List.prefix_append_right_inj first |>.mp cut⟩

end Tracing
