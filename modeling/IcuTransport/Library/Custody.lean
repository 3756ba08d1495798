import IcuTransport.Library.Trace
import Mathlib.Data.List.Induction
import Mathlib.Data.List.Nodup

/-!
# Handles that are acquired and released

A program acquires handles, works with them and releases them, and its work is divided by openings
before which nothing may be held. The monitor `step` keeps the handles that are held: it refuses a
second handle of one kind, a release or a use of a handle that is not held, and an opening while
something is held. A handle may be given out again after its release.

A trace that the monitor accepts from nothing to nothing is orderly (`orderly_of_watch`): every
acquisition is followed by its release before the next opening, nothing is released twice, nothing
is used outside its time, and never are two handles of one kind held.

In which order the handles were acquired does not matter to the monitor (`watch_perm`). A
computation is therefore balanced between two collections of handles (`Balanced`), and the rules of
balance take a program step by step. What is known of the handles of a part of a program still holds
among the other handles of the whole, whatever these are (`Balanced.framed`).
-/

set_option autoImplicit false

namespace Custody

open Tracing

universe u v

/-- What an event means for the handles. -/
inductive Action (η : Type u) where
  | opening
  | acquire (handle : η)
  | release (handle : η)
  | touch (handles : List η)
  | idle

variable {η : Type u} {κ : Type v} [DecidableEq η] {kind : η → κ}

/-- The handles that are held after an action, whether it was right or not. -/
def moved (held : List η) : Action η → List η
  | .acquire handle => handle :: held
  | .release handle => held.erase handle
  | _ => held

/-- The handles that are held after a trace. -/
def heldAfter (actions : List (Action η)) : List η := actions.foldl moved []

/-- The action is right while these handles are held. -/
def Allowed (kind : η → κ) (held : List η) : Action η → Prop
  | .opening => held = []
  | .acquire handle => kind handle ∉ held.map kind
  | .release handle => handle ∈ held
  | .touch handles => ∀ handle ∈ handles, handle ∈ held
  | .idle => True

/-- A right action keeps the handles apart in kind. -/
theorem nodup_moved {held : List η} {action : Action η} (allowed : Allowed kind held action)
    (alone : (held.map kind).Nodup) : ((moved held action).map kind).Nodup := by
  cases action with
  | acquire handle => exact List.nodup_cons.mpr ⟨allowed, alone⟩
  | release handle => exact alone.sublist (List.erase_sublist.map kind)
  | opening => exact alone
  | touch handles => exact alone
  | idle => exact alone

variable [DecidableEq κ]

instance (held : List η) (action : Action η) : Decidable (Allowed kind held action) :=
  match action with
  | .opening => decidable_of_iff (held.isEmpty = true) List.isEmpty_iff
  | .acquire handle => inferInstanceAs (Decidable (kind handle ∉ held.map kind))
  | .release handle => inferInstanceAs (Decidable (handle ∈ held))
  | .touch handles => inferInstanceAs (Decidable (∀ handle ∈ handles, handle ∈ held))
  | .idle => inferInstanceAs (Decidable True)

/-- The monitor. -/
def step (kind : η → κ) (held : List η) (action : Action η) : Option (List η) :=
  if Allowed kind held action then some (moved held action) else none

theorem step_of_allowed {held : List η} {action : Action η} (allowed : Allowed kind held action) :
    step kind held action = some (moved held action) := if_pos allowed

theorem step_eq_some_iff {held later : List η} {action : Action η} :
    step kind held action = some later ↔ Allowed kind held action ∧ later = moved held action := by
  unfold step
  split
  · rename_i allowed
    exact ⟨fun same => ⟨allowed, (Option.some.inj same).symm⟩, fun holds => by rw [holds.2]⟩
  · rename_i refused
    exact ⟨(fun same => by cases same), fun holds => absurd holds.1 refused⟩

/-- **What is right about a whole trace.** -/
structure Orderly (kind : η → κ) (actions : List (Action η)) : Prop where
  /-- Never are two handles of one kind held. -/
  alone : ∀ before, before <+: actions → ((heldAfter before).map kind).Nodup
  /-- Nothing is held at an opening. -/
  opened : ∀ before after, actions = before ++ .opening :: after → heldAfter before = []
  /-- A handle is used only while it is held. -/
  touched : ∀ before handles after, actions = before ++ .touch handles :: after →
    ∀ handle ∈ handles, handle ∈ heldAfter before
  /-- An acquired handle is released before it is acquired again and before the next opening. -/
  released : ∀ before handle after, actions = before ++ .acquire handle :: after →
    ∃ between later, after = between ++ .release handle :: later ∧
      .release handle ∉ between ∧ .acquire handle ∉ between ∧ .opening ∉ between
  /-- A released handle was acquired before, and has not been released since. -/
  acquired : ∀ before handle after, actions = before ++ .release handle :: after →
    ∃ earlier between, before = earlier ++ .acquire handle :: between ∧ .release handle ∉ between
  /-- Nothing is held in the end. -/
  finished : heldAfter actions = []

/-! ## The monitor keeps the books -/

/-- The monitor follows the handles. -/
theorem foldl_moved_of_watch {held later : List η} {actions : List (Action η)}
    (accepted : watch (step kind) held actions = some later) :
    actions.foldl moved held = later := by
  induction actions generalizing held with
  | nil => exact Option.some.inj accepted
  | cons action rest ih =>
      obtain ⟨next, stepped, accepted⟩ := Option.bind_eq_some_iff.mp accepted
      obtain ⟨_, rfl⟩ := step_eq_some_iff.mp stepped
      exact ih accepted

theorem nodup_of_watch {held later : List η} {actions : List (Action η)}
    (accepted : watch (step kind) held actions = some later) (alone : (held.map kind).Nodup) :
    (later.map kind).Nodup := by
  induction actions generalizing held with
  | nil =>
      obtain rfl := Option.some.inj accepted
      exact alone
  | cons action rest ih =>
      obtain ⟨next, stepped, accepted⟩ := Option.bind_eq_some_iff.mp accepted
      obtain ⟨allowed, rfl⟩ := step_eq_some_iff.mp stepped
      exact ih accepted (nodup_moved allowed alone)

/-- What is held is released before the next opening, when nothing is held in the end. -/
theorem released_of_watch {held : List η} {actions : List (Action η)} {handle : η}
    (accepted : watch (step kind) held actions = some []) (member : handle ∈ held) :
    ∃ between later, actions = between ++ .release handle :: later ∧
      .release handle ∉ between ∧ .acquire handle ∉ between ∧ .opening ∉ between := by
  induction actions generalizing held with
  | nil =>
      obtain rfl := Option.some.inj accepted
      cases member
  | cons action rest ih =>
      obtain ⟨next, stepped, accepted⟩ := Option.bind_eq_some_iff.mp accepted
      obtain ⟨allowed, rfl⟩ := step_eq_some_iff.mp stepped
      -- an action that leaves the handle in place is put in front of the others
      have goOn : handle ∈ moved held action → action ≠ .release handle →
          action ≠ .acquire handle → action ≠ .opening →
          ∃ between later, action :: rest = between ++ .release handle :: later ∧
            .release handle ∉ between ∧ .acquire handle ∉ between ∧ .opening ∉ between := by
        intro stays noRelease noAcquire noOpening
        obtain ⟨between, later, rfl, apart⟩ := ih accepted stays
        refine ⟨action :: between, later, rfl, ?_⟩
        simp only [List.mem_cons, not_or]
        exact ⟨⟨noRelease.symm, apart.1⟩, ⟨noAcquire.symm, apart.2.1⟩, noOpening.symm, apart.2.2⟩
      cases action with
      | opening =>
          have empty : held = [] := allowed
          rw [empty] at member
          cases member
      | acquire other =>
          refine goOn (List.mem_cons_of_mem other member) nofun ?_ nofun
          intro same
          obtain rfl := Action.acquire.inj same
          exact allowed (List.mem_map_of_mem member)
      | release other =>
          by_cases same : other = handle
          · subst same
            exact ⟨[], rest, rfl, List.not_mem_nil, List.not_mem_nil, List.not_mem_nil⟩
          · refine goOn ((List.mem_erase_of_ne (Ne.symm same)).mpr member) ?_ nofun nofun
            intro equal
            exact same (Action.release.inj equal)
      | touch handles => exact goOn member nofun nofun nofun
      | idle => exact goOn member nofun nofun nofun

/-- What is held was acquired, and has not been released since. -/
theorem acquired_of_watch {held : List η} {actions : List (Action η)} {handle : η}
    (accepted : watch (step kind) [] actions = some held) (member : handle ∈ held) :
    ∃ earlier between, actions = earlier ++ .acquire handle :: between ∧
      .release handle ∉ between := by
  induction actions using List.reverseRecOn generalizing held with
  | nil =>
      obtain rfl := Option.some.inj accepted
      cases member
  | append_singleton actions action ih =>
      obtain ⟨middle, first, last⟩ := watch_split accepted
      obtain ⟨next, stepped, ended⟩ := Option.bind_eq_some_iff.mp last
      obtain rfl := Option.some.inj ended
      obtain ⟨allowed, rfl⟩ := step_eq_some_iff.mp stepped
      have goOn : handle ∈ middle → action ≠ .release handle →
          ∃ earlier between, actions ++ [action] = earlier ++ .acquire handle :: between ∧
            .release handle ∉ between := by
        intro before noRelease
        obtain ⟨earlier, between, rfl, apart⟩ := ih first before
        refine ⟨earlier, between ++ [action], by rw [List.append_assoc, List.cons_append], ?_⟩
        simp only [List.mem_append, List.mem_singleton, not_or]
        exact ⟨apart, noRelease.symm⟩
      cases action with
      | acquire other =>
          rcases List.mem_cons.mp member with rfl | before
          · exact ⟨actions, [], rfl, List.not_mem_nil⟩
          · exact goOn before nofun
      | release other =>
          refine goOn (List.mem_of_mem_erase member) ?_
          intro same
          obtain rfl := Action.release.inj same
          have alone : middle.Nodup := (nodup_of_watch first List.nodup_nil).of_map kind
          exact (alone.not_mem_erase) member
      | opening => exact goOn member nofun
      | touch handles => exact goOn member nofun
      | idle => exact goOn member nofun

/-- **A trace that the monitor accepts from nothing to nothing is orderly.** -/
theorem orderly_of_watch {actions : List (Action η)}
    (accepted : watch (step kind) [] actions = some []) : Orderly kind actions := by
  -- at each action of the trace the monitor holds what is held, and allows the action
  have allowed : ∀ before action after, actions = before ++ action :: after →
      watch (step kind) [] before = some (heldAfter before) ∧
        Allowed kind (heldAfter before) action ∧
        watch (step kind) (moved (heldAfter before) action) after = some [] := by
    intro before action after split
    rw [split] at accepted
    obtain ⟨held, first, rest⟩ := watch_split accepted
    obtain ⟨next, stepped, last⟩ := Option.bind_eq_some_iff.mp rest
    obtain ⟨allowed, rfl⟩ := step_eq_some_iff.mp stepped
    have same : heldAfter before = held := foldl_moved_of_watch first
    rw [same]
    exact ⟨first, allowed, last⟩
  refine ⟨?_, ?_, ?_, ?_, ?_, foldl_moved_of_watch accepted⟩
  · rintro before ⟨after, rfl⟩
    obtain ⟨held, first, _⟩ := watch_split accepted
    have same : heldAfter before = held := foldl_moved_of_watch first
    rw [same]
    exact nodup_of_watch first List.nodup_nil
  · intro before after split
    exact (allowed before .opening after split).2.1
  · intro before handles after split
    exact (allowed before (.touch handles) after split).2.1
  · intro before handle after split
    exact released_of_watch (allowed before (.acquire handle) after split).2.2 List.mem_cons_self
  · intro before handle after split
    obtain ⟨first, held, _⟩ := allowed before (.release handle) after split
    exact acquired_of_watch first held

/-! ## Balanced computations -/

section Balance

variable {held other : List η} {handle : η} {α β : Type}

omit [DecidableEq η] [DecidableEq κ] in
theorem Allowed.perm {action : Action η} (allowed : Allowed kind held action)
    (same : held.Perm other) : Allowed kind other action := by
  cases action with
  | opening =>
      have empty : held = [] := allowed
      rw [empty] at same
      exact same.symm.eq_nil
  | acquire handle => exact fun member => allowed ((same.map kind).mem_iff.mpr member)
  | release handle => exact same.mem_iff.mp allowed
  | touch handles => exact fun handle member => same.mem_iff.mp (allowed handle member)
  | idle => exact trivial

theorem moved_perm (same : held.Perm other) (action : Action η) :
    (moved held action).Perm (moved other action) := by
  cases action with
  | acquire handle => exact same.cons handle
  | release handle => exact same.erase handle
  | opening => exact same
  | touch handles => exact same
  | idle => exact same

/-- **The monitor does not mind the order of the handles.** -/
theorem watch_perm {actions : List (Action η)} {later : List η} (same : held.Perm other)
    (accepted : watch (step kind) held actions = some later) :
    ∃ final, watch (step kind) other actions = some final ∧ later.Perm final := by
  induction actions generalizing held other with
  | nil =>
      obtain rfl := Option.some.inj accepted
      exact ⟨other, rfl, same⟩
  | cons action rest ih =>
      obtain ⟨next, stepped, accepted⟩ := Option.bind_eq_some_iff.mp accepted
      obtain ⟨allowed, rfl⟩ := step_eq_some_iff.mp stepped
      obtain ⟨final, watched, alike⟩ := ih (moved_perm same action) accepted
      refine ⟨final, ?_, alike⟩
      rw [watch_cons, step_of_allowed (allowed.perm same), Option.bind_some]
      exact watched

/-- The monitor lets a computation pass from the handles before it, and in the end the handles are
held that its value gives, in some order. -/
def Balanced (kind : η → κ) (before : List η) (computation : Traced (Action η) α)
    (after : α → List η) : Prop :=
  ∃ later, watch (step kind) before computation.events = some later ∧
    later.Perm (after computation.value)

namespace Balanced

variable {before : List η} {after : β → List η}

theorem pure {value : β} (same : before.Perm (after value)) :
    Balanced kind before (Pure.pure value : Traced (Action η) β) after := ⟨before, rfl, same⟩

/-- **Balances add up**: what follows starts with the handles that the first part leaves. -/
theorem bind {first : Traced (Action η) α} {middle : α → List η} {next : α → Traced (Action η) β}
    (balanced : Balanced kind before first middle)
    (follows : Balanced kind (middle first.value) (next first.value) after) :
    Balanced kind before (first >>= next) after := by
  obtain ⟨reached, watched, same⟩ := balanced
  obtain ⟨later, ended, alike⟩ := follows
  obtain ⟨final, continued, permuted⟩ := watch_perm same.symm ended
  refine ⟨final, ?_, permuted.symm.trans alike⟩
  rw [Traced.events_bind, watch_append, watched, Option.bind_some]
  exact continued

/-- The handles before a computation may be put in another order. -/
theorem permute {computation : Traced (Action η) β} (same : before.Perm other)
    (balanced : Balanced kind other computation after) :
    Balanced kind before computation after := by
  obtain ⟨later, watched, alike⟩ := balanced
  obtain ⟨final, continued, permuted⟩ := watch_perm same.symm watched
  exact ⟨final, continued, permuted.symm.trans alike⟩

variable {next : Unit → Traced (Action η) β}

theorem emit_bind {action : Action η} (allowed : Allowed kind before action)
    (follows : Balanced kind (moved before action) (next ()) after) :
    Balanced kind before (Traced.emit action >>= next) after := by
  obtain ⟨later, watched, alike⟩ := follows
  refine ⟨later, ?_, alike⟩
  rw [Traced.events_bind, Traced.events_emit, List.singleton_append, watch_cons,
    step_of_allowed allowed, Option.bind_some]
  exact watched

/-- A handle is acquired when none of its kind is held. -/
theorem acquire_bind (fresh : kind handle ∉ before.map kind)
    (follows : Balanced kind (handle :: before) (next ()) after) :
    Balanced kind before (Traced.emit (.acquire handle) >>= next) after := emit_bind fresh follows

/-- A handle that is held is released, and the others stay. -/
theorem release_bind (holds : before.Perm (handle :: other))
    (follows : Balanced kind other (next ()) after) :
    Balanced kind before (Traced.emit (.release handle) >>= next) after := by
  refine permute holds (emit_bind List.mem_cons_self ?_)
  rw [moved, List.erase_cons_head]
  exact follows

/-- Handles that are held are used. -/
theorem touch_bind {handles : List η} (within : handles ⊆ before)
    (follows : Balanced kind before (next ()) after) :
    Balanced kind before (Traced.emit (.touch handles) >>= next) after :=
  emit_bind (fun _ member => within member) follows

/-- An attempt that fails leaves what the whole leaves when it fails. -/
theorem andThen {first : Traced (Action η) (Option α)} {kept : List η}
    {next : α → Traced (Action η) (Option β)} {after : Option β → List η}
    (balanced : Balanced kind before first fun found => if found.isSome then kept else after none)
    (follows : ∀ value, Balanced kind kept (next value) after) :
    Balanced kind before (first.andThen next) after := by
  refine bind balanced ?_
  cases first.value with
  | none => exact pure (List.Perm.refl _)
  | some value => exact follows value

/-- What is balanced from nothing to nothing is orderly. -/
theorem orderly {computation : Traced (Action η) β}
    (balanced : Balanced kind [] computation fun _ => []) : Orderly kind computation.events := by
  obtain ⟨later, watched, empty⟩ := balanced
  rw [List.Perm.eq_nil empty] at watched
  exact orderly_of_watch watched

/-- What is left may be released in any order. -/
theorem watch_release {gone : List η} (same : held.Perm gone) :
    watch (step kind) held (gone.map .release) = some [] := by
  induction gone generalizing held with
  | nil =>
      rw [same.eq_nil]
      rfl
  | cons handle rest ih =>
      have allowed : Allowed kind held (.release handle) := same.mem_iff.mpr List.mem_cons_self
      rw [List.map_cons, watch_cons, step_of_allowed allowed, Option.bind_some]
      have erased := same.erase handle
      rw [List.erase_cons_head] at erased
      exact ih erased

/-- What is balanced from nothing is orderly once it has released what it leaves. -/
theorem orderly_released {computation : Traced (Action η) β}
    (balanced : Balanced kind [] computation after) :
    Orderly kind (computation.events ++ (after computation.value).map .release) := by
  obtain ⟨later, watched, same⟩ := balanced
  refine orderly_of_watch (?_ : watch (step kind) [] _ = some [])
  rw [watch_append, watched, Option.bind_some]
  exact watch_release same

end Balanced

end Balance

/-! ## Frames -/

section Frames

variable {θ : Type u} {ν : Type v} [DecidableEq θ] [DecidableEq ν] {kindOf : θ → ν}
  {inject : η → θ} {frame : List θ}

/-- What an action of a part is in the whole: handles are renamed, and handles of the frame may be
used besides. An opening is the part's own matter. -/
def Renders (inject : η → θ) (frame : List θ) : Action η → Action θ → Prop
  | .acquire handle, action => action = .acquire (inject handle)
  | .release handle, action => action = .release (inject handle)
  | .touch handles, action => ∃ more, more ⊆ frame ∧ action = .touch (handles.map inject ++ more)
  | .opening, action => ∃ more, more ⊆ frame ∧ action = .touch more
  | .idle, action => ∃ more, more ⊆ frame ∧ action = .touch more

/-- The kinds of the part are told apart in the whole, and the frame has none of them. -/
structure Apart (kind : η → κ) (kindOf : θ → ν) (inject : η → θ) (frame : List θ) : Prop where
  reflects : ∀ first second, kindOf (inject first) = kindOf (inject second) →
    kind first = kind second
  disjoint : ∀ handle, kindOf (inject handle) ∉ frame.map kindOf

omit [DecidableEq κ] [DecidableEq ν] in
/-- A right action of a part is right in the whole, and leaves the frame as it is. -/
theorem Renders.step {held : List η} {action : Action η} {rendered : Action θ}
    (renders : Renders inject frame action rendered) (apart : Apart kind kindOf inject frame)
    (injective : Function.Injective inject) (allowed : Allowed kind held action) :
    Allowed kindOf (held.map inject ++ frame) rendered ∧
      moved (held.map inject ++ frame) rendered = (moved held action).map inject ++ frame := by
  cases action with
  | acquire handle =>
      obtain rfl := renders
      refine ⟨?_, rfl⟩
      rintro member
      rw [List.map_append, List.map_map, List.mem_append, List.mem_map] at member
      rcases member with ⟨other, held, same⟩ | framed
      · exact allowed (List.mem_map.mpr ⟨other, held, apart.reflects other handle same⟩)
      · exact apart.disjoint handle framed
  | release handle =>
      obtain rfl := renders
      have member : handle ∈ held := allowed
      have renamed : inject handle ∈ held.map inject := List.mem_map_of_mem member
      refine ⟨List.mem_append_left frame renamed, ?_⟩
      rw [moved, moved, List.erase_append_left frame renamed, List.map_erase injective]
  | touch handles =>
      obtain ⟨more, within, rfl⟩ := renders
      refine ⟨?_, rfl⟩
      intro handle member
      rcases List.mem_append.mp member with renamed | framed
      · obtain ⟨own, used, rfl⟩ := List.mem_map.mp renamed
        exact List.mem_append_left frame (List.mem_map_of_mem (allowed own used))
      · exact List.mem_append_right _ (within framed)
  | opening =>
      obtain ⟨more, within, rfl⟩ := renders
      exact ⟨fun _ member => List.mem_append_right _ (within member), rfl⟩
  | idle =>
      obtain ⟨more, within, rfl⟩ := renders
      exact ⟨fun _ member => List.mem_append_right _ (within member), rfl⟩

/-- **The frame rule.** A part that the monitor accepts on its own is accepted among the handles of
a frame, and leaves these as they are. -/
theorem watch_framed {ε : Type u} {meaning : ε → Action η} {render : ε → Action θ}
    (apart : Apart kind kindOf inject frame) (injective : Function.Injective inject)
    (renders : ∀ event, Renders inject frame (meaning event) (render event)) {held later : List η}
    {events : List ε} (accepted : watch (step kind) held (events.map meaning) = some later) :
    watch (step kindOf) (held.map inject ++ frame) (events.map render) =
      some (later.map inject ++ frame) := by
  induction events generalizing held with
  | nil =>
      obtain rfl := Option.some.inj accepted
      rfl
  | cons event rest ih =>
      obtain ⟨next, stepped, accepted⟩ := Option.bind_eq_some_iff.mp accepted
      obtain ⟨allowed, rfl⟩ := step_eq_some_iff.mp stepped
      obtain ⟨right, same⟩ := (renders event).step apart injective allowed
      rw [List.map_cons, watch_cons, step_of_allowed right, Option.bind_some, same]
      exact ih accepted

/-- A part, seen among the handles of the whole. -/
theorem Balanced.framed {ε : Type u} {α : Type} {meaning : ε → Action η} {render : ε → Action θ}
    (apart : Apart kind kindOf inject frame) (injective : Function.Injective inject)
    (renders : ∀ event, Renders inject frame (meaning event) (render event)) {before : List η}
    {computation : Traced ε α} {after : α → List η}
    (accepted : watch (step kind) before (computation.events.map meaning) =
      some (after computation.value)) :
    Balanced kindOf (before.map inject ++ frame) (computation.mapEvents render) fun value =>
      (after value).map inject ++ frame :=
  ⟨_, watch_framed apart injective renders accepted, List.Perm.refl _⟩

end Frames

end Custody
