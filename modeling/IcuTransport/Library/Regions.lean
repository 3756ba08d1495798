import Mathlib.Data.Set.Basic
import Mathlib.Logic.Function.Basic

/-!
# Tasks that own a region of a shared store

A store maps places to contents, and some sets of places are regions. A task takes a region that is
blank, makes it its own, and runs a program of calls inside it. A program is a tree: it is done, or
it makes a call and goes on with the answer.

Tasks take turns call by call, in any order, and between their turns others write where no region
is owned. A program that is confined to its region and gives it up at the end runs as if it were
alone:

* the owned regions are different (`Runs.apart`);
* a task that has finished has the result that its program has alone in an empty store
  (`Runs.isolated`);
* if every program leaves its region blank when it runs alone, then a place that nobody owns holds
  what others have left there, as if the tasks had never run (`Runs.undisturbed`).
-/

set_option autoImplicit false

namespace Regions

universe u

/-! ## Programs -/

/-- A program that makes calls. -/
inductive Program (κ α ρ : Type u) where
  | done (result : ρ)
  | call (request : κ) (next : α → Program κ α ρ)

namespace Program

variable {κ α ρ τ σ : Type u}

/-- One program after another. -/
def bind : Program κ α ρ → (ρ → Program κ α τ) → Program κ α τ
  | .done result, next => next result
  | .call request rest, next => .call request fun answer => (rest answer).bind next

instance : Monad (Program κ α) where
  pure := .done
  bind := bind

@[simp] theorem pure_eq (result : ρ) : (pure result : Program κ α ρ) = .done result := rfl

@[simp] theorem done_bind (result : ρ) (next : ρ → Program κ α τ) :
    (Program.done result : Program κ α ρ) >>= next = next result := rfl

@[simp] theorem call_bind (request : κ) (rest : α → Program κ α ρ) (next : ρ → Program κ α τ) :
    Program.call request rest >>= next = .call request fun answer => rest answer >>= next := rfl

/-- The program has calls to make. -/
def Active : Program κ α ρ → Prop
  | .done _ => False
  | .call _ _ => True

/-- The result of a program and the store it leaves, when nobody else is there. -/
def run (perform : κ → σ → α × σ) : Program κ α ρ → σ → ρ × σ
  | .done result, store => (result, store)
  | .call request next, store =>
      (next (perform request store).1).run perform (perform request store).2

@[simp] theorem run_done (perform : κ → σ → α × σ) (result : ρ) (store : σ) :
    (Program.done result : Program κ α ρ).run perform store = (result, store) := rfl

theorem run_call (perform : κ → σ → α × σ) (request : κ) (next : α → Program κ α ρ) (store : σ) :
    (Program.call request next).run perform store =
      (next (perform request store).1).run perform (perform request store).2 := rfl

theorem run_bind (perform : κ → σ → α × σ) (first : Program κ α ρ) (next : ρ → Program κ α τ)
    (store : σ) :
    (first >>= next).run perform store =
      (next (first.run perform store).1).run perform (first.run perform store).2 := by
  induction first generalizing store with
  | done result => rfl
  | call request rest ih => exact ih _ _

/-- Every call stays inside, and only a last call closes. -/
def Confined (inside closing : κ → Prop) : Program κ α ρ → Prop
  | .done _ => True
  | .call request next =>
      inside request ∧ (closing request → ∀ answer, ¬ (next answer).Active) ∧
        ∀ answer, (next answer).Confined inside closing

/-- Every call stays inside and does not close. -/
def Staying (inside closing : κ → Prop) : Program κ α ρ → Prop
  | .done _ => True
  | .call request next =>
      inside request ∧ ¬ closing request ∧ ∀ answer, (next answer).Staying inside closing

section Confinement

variable {inside closing : κ → Prop}

theorem Staying.bind {first : Program κ α ρ} {next : ρ → Program κ α τ}
    (stays : first.Staying inside closing)
    (after : ∀ result, (next result).Staying inside closing) :
    (first >>= next).Staying inside closing := by
  induction first with
  | done result => exact after result
  | call request rest ih => exact ⟨stays.1, stays.2.1, fun answer => ih answer (stays.2.2 answer)⟩

theorem Staying.confined {first : Program κ α ρ} {next : ρ → Program κ α τ}
    (stays : first.Staying inside closing)
    (after : ∀ result, (next result).Confined inside closing) :
    (first >>= next).Confined inside closing := by
  induction first with
  | done result => exact after result
  | call request rest ih =>
      exact ⟨stays.1, fun closes => absurd closes stays.2.1,
        fun answer => ih answer (stays.2.2 answer)⟩

theorem Confined.map {first : Program κ α ρ} (confined : first.Confined inside closing)
    (further : ρ → τ) :
    (first >>= fun result => pure (further result)).Confined inside closing := by
  induction first with
  | done result => trivial
  | call request rest ih =>
      refine ⟨confined.1, fun closes answer => ?_, fun answer => ih answer (confined.2.2 answer)⟩
      have ends := confined.2.1 closes answer
      dsimp only
      cases whole : rest answer with
      | done result => exact id
      | call request' rest' =>
          rw [whole] at ends
          exact absurd trivial ends

end Confinement

end Program

/-! ## Stores -/

/-- A store that falls into regions: what its places hold, how calls are performed, and which of
them stay inside a region. Such a call sees its region only and changes nothing else. A region is
held while there is something at its root, and only a closing call may give it up. -/
structure Territory (δ π ν κ α σ : Type u) where
  look : σ → π → ν
  nothing : ν
  blank : σ
  look_blank : ∀ place, look blank place = nothing
  region : δ → Set π
  root : δ → π
  root_mem : ∀ name, root name ∈ region name
  apart : ∀ {first second place}, place ∈ region first → place ∈ region second → first = second
  make : δ → σ → σ
  make_root : ∀ name store, look (make name store) (root name) ≠ nothing
  make_inside : ∀ {name first second},
    (∀ place ∈ region name, look first place = look second place) →
      ∀ place ∈ region name, look (make name first) place = look (make name second) place
  make_outside : ∀ {name place} store, place ∉ region name →
    look (make name store) place = look store place
  perform : κ → σ → α × σ
  inside : δ → κ → Prop
  closing : κ → Prop
  perform_answer : ∀ {name request first second}, inside name request →
    (∀ place ∈ region name, look first place = look second place) →
      (perform request first).1 = (perform request second).1
  perform_inside : ∀ {name request first second}, inside name request →
    (∀ place ∈ region name, look first place = look second place) →
      ∀ place ∈ region name,
        look (perform request first).2 place = look (perform request second).2 place
  perform_outside : ∀ {name request place} store, inside name request → place ∉ region name →
    look (perform request store).2 place = look store place
  perform_root : ∀ {name request store}, inside name request → ¬ closing request →
    look store (root name) ≠ nothing → look (perform request store).2 (root name) ≠ nothing

namespace Territory

variable {δ π ν κ α σ ρ : Type u} (territory : Territory δ π ν κ α σ)

/-- Two stores hold the same in a region. -/
def Agree (name : δ) (first second : σ) : Prop :=
  ∀ place ∈ territory.region name, territory.look first place = territory.look second place

/-- Nothing is in a region. -/
def Vacant (name : δ) (store : σ) : Prop :=
  ∀ place ∈ territory.region name, territory.look store place = territory.nothing

/-- There is something at the root of a region. -/
def Held (name : δ) (store : σ) : Prop :=
  territory.look store (territory.root name) ≠ territory.nothing

/-- What a program does alone in a region of its own. -/
def alone (name : δ) (program : Program κ α ρ) : ρ × σ :=
  program.run territory.perform (territory.make name territory.blank)

variable {territory} {name other : δ} {first second store : σ}

theorem Agree.trans {third : σ} (before : territory.Agree name first second)
    (after : territory.Agree name second third) : territory.Agree name first third :=
  fun place member => (before place member).trans (after place member)

theorem Agree.symm (same : territory.Agree name first second) :
    territory.Agree name second first :=
  fun place member => (same place member).symm

theorem Agree.held (same : territory.Agree name first second)
    (held : territory.Held name first) : territory.Held name second := by
  intro gone
  exact held ((same _ (territory.root_mem name)).trans gone)

theorem Held.not_vacant (held : territory.Held name store) : ¬ territory.Vacant name store :=
  fun vacant => held (vacant _ (territory.root_mem name))

theorem Vacant.agree (vacant : territory.Vacant name store) :
    territory.Agree name store territory.blank := by
  intro place member
  rw [vacant place member, territory.look_blank]

/-- What happens in one region is not seen in another. -/
theorem notMem_of_ne {place : π} (distinct : name ≠ other)
    (member : place ∈ territory.region other) : place ∉ territory.region name :=
  fun here => distinct (territory.apart here member)

theorem agree_make (distinct : name ≠ other) (store : σ) :
    territory.Agree other (territory.make name store) store :=
  fun _ member => territory.make_outside store (notMem_of_ne distinct member)

theorem agree_perform {request : κ} (inside : territory.inside name request)
    (distinct : name ≠ other) (store : σ) :
    territory.Agree other (territory.perform request store).2 store :=
  fun _ member => territory.perform_outside store inside (notMem_of_ne distinct member)

end Territory

/-! ## Tasks -/

/-- What has become of a task. A task that found no region has no name. -/
inductive Task (δ κ α ρ : Type u) where
  | waiting
  | working (name : δ) (rest : Program κ α ρ)
  | finished (name : Option δ) (result : ρ)

/-- The task has calls to make in a region. -/
def Task.Owns {δ κ α ρ : Type u} (task : Task δ κ α ρ) (name : δ) : Prop :=
  match task with
  | .working own rest => own = name ∧ rest.Active
  | _ => False

/-- A store and the tasks that share it. -/
structure System (ι δ κ α σ ρ : Type u) where
  store : σ
  tasks : ι → Task δ κ α ρ

/-- Who takes a step: a task, or others, who write to some places. -/
inductive Label (ι π ν : Type u) where
  | task (index : ι)
  | others (writes : π → Option ν)

section Runs

variable {ι δ π ν κ α σ ρ : Type u}

/-- What others leave at a place. -/
def overwritten : List (Label ι π ν) → (π → ν) → π → ν
  | [], contents => contents
  | .task _ :: rest, contents => overwritten rest contents
  | .others writes :: rest, contents =>
      overwritten rest fun place => (writes place).getD (contents place)

theorem overwritten_append (first second : List (Label ι π ν)) (contents : π → ν) :
    overwritten (first ++ second) contents = overwritten second (overwritten first contents) := by
  induction first generalizing contents with
  | nil => rfl
  | cons label rest ih =>
      cases label with
      | task index => exact ih contents
      | others writes => exact ih _

/-- Tasks alone overwrite nothing. -/
theorem overwritten_of_tasks {labels : List (Label ι π ν)}
    (own : ∀ label ∈ labels, ∃ index, label = .task index)
    (contents : π → ν) : overwritten labels contents = contents := by
  induction labels with
  | nil => rfl
  | cons label rest ih =>
      obtain ⟨index, rfl⟩ := own label List.mem_cons_self
      exact ih fun label member => own label (List.mem_cons_of_mem _ member)

variable (territory : Territory δ π ν κ α σ) (program : ι → δ → Program κ α ρ) (refused : ι → ρ)

/-- A place in a region that the task owns. -/
def Covers (task : Task δ κ α ρ) (place : π) : Prop :=
  ∃ name, task.Owns name ∧ place ∈ territory.region name

/-- A place that some task owns. -/
def Owned (system : System ι δ κ α σ ρ) (place : π) : Prop :=
  ∃ index, Covers territory (system.tasks index) place

/-! ## A task among others -/

/-- A task stands where its program would stand if it were alone. -/
def Fits (index : ι) (store : σ) : Task δ κ α ρ → Prop
  | .waiting => True
  | .working name rest =>
      rest.Confined (territory.inside name) territory.closing ∧
        ∃ own, rest.run territory.perform own = territory.alone name (program index name) ∧
          (rest.Active → territory.Agree name store own ∧ territory.Held name store)
  | .finished none result => result = refused index
  | .finished (some name) result => result = (territory.alone name (program index name)).1

/-- Every task stands where it would stand alone, and no region has two owners. -/
structure Isolated (system : System ι δ κ α σ ρ) : Prop where
  fits : ∀ index, Fits territory program refused index system.store (system.tasks index)
  apart : ∀ {first second name}, (system.tasks first).Owns name →
    (system.tasks second).Owns name → first = second

variable {territory program refused}

section Fits

variable {index : ι} {store : σ} {name : δ}

/-- A task is not disturbed where it owns nothing. -/
theorem Fits.congr {store' : σ} {task : Task δ κ α ρ}
    (fits : Fits territory program refused index store task)
    (same : ∀ name, task.Owns name → territory.Agree name store' store) :
    Fits territory program refused index store' task := by
  cases task with
  | waiting => trivial
  | working name rest =>
      obtain ⟨confined, own, result, here⟩ := fits
      refine ⟨confined, own, result, fun active => ?_⟩
      obtain ⟨agree, held⟩ := here active
      have kept := same name ⟨rfl, active⟩
      exact ⟨kept.trans agree, kept.symm.held held⟩
  | finished name result =>
      cases name with
      | none => exact fits
      | some name => exact fits

/-- A task that owns a region holds it. -/
theorem Fits.held {task : Task δ κ α ρ} (fits : Fits territory program refused index store task)
    (owns : task.Owns name) : territory.Held name store := by
  cases task with
  | waiting => exact owns.elim
  | working own rest =>
      obtain ⟨rfl, active⟩ := owns
      obtain ⟨_, _, _, here⟩ := fits
      exact (here active).2
  | finished own result => exact owns.elim

/-- What a task does next, it would do alone. -/
theorem Fits.act {request : κ} {next : α → Program κ α ρ}
    (fits : Fits territory program refused index store (.working name (.call request next))) :
    territory.inside name request ∧
      Fits territory program refused index (territory.perform request store).2
        (.working name (next (territory.perform request store).1)) := by
  obtain ⟨⟨inside, closes, confined⟩, own, result, here⟩ := fits
  obtain ⟨agree, held⟩ := here trivial
  have answer : (territory.perform request store).1 = (territory.perform request own).1 :=
    territory.perform_answer inside agree
  refine ⟨inside, confined _, (territory.perform request own).2, ?_, fun active => ⟨?_, ?_⟩⟩
  · rw [answer]
    exact result
  · exact territory.perform_inside inside agree
  · exact territory.perform_root inside (fun closing => closes closing _ active) held

/-- A task that finds a region begins as it would alone. -/
theorem fits_enter
    (confined : (program index name).Confined (territory.inside name) territory.closing)
    (vacant : territory.Vacant name store) :
    Fits territory program refused index (territory.make name store)
      (.working name (program index name)) :=
  ⟨confined, territory.make name territory.blank, rfl, fun _ =>
    ⟨territory.make_inside vacant.agree, territory.make_root name store⟩⟩

/-- A program that is done has the result it has alone. -/
theorem Fits.leave {result : ρ}
    (fits : Fits territory program refused index store (.working name (.done result))) :
    Fits territory program refused index store (.finished (some name) result) := by
  obtain ⟨_, _, same, _⟩ := fits
  exact congrArg Prod.fst same

/-- The last call of a program leaves its region as it does alone. -/
theorem Fits.last {request : κ} {next : α → Program κ α ρ}
    (fits : Fits territory program refused index store (.working name (.call request next)))
    (ends : ¬ (next (territory.perform request store).1).Active) :
    territory.Agree name (territory.perform request store).2
      (territory.alone name (program index name)).2 := by
  obtain ⟨⟨inside, _, _⟩, own, result, here⟩ := fits
  obtain ⟨agree, _⟩ := here trivial
  rw [territory.perform_answer inside agree] at ends
  rw [← result, Program.run_call]
  cases rest : next (territory.perform request own).1 with
  | done result => exact territory.perform_inside inside agree
  | call request rest' =>
      rw [rest] at ends
      exact absurd trivial ends

end Fits

/-- Where every task waits, every task is isolated. -/
theorem isolated_start {system : System ι δ κ α σ ρ}
    (waiting : ∀ index, system.tasks index = .waiting) :
    Isolated territory program refused system := by
  constructor
  · intro index
    rw [waiting]
    trivial
  · intro first second name owns
    rw [waiting] at owns
    exact owns.elim

/-! ## Steps -/

variable [DecidableEq ι]

section Steps

variable (territory program refused)

/-- One step. A task finds a region or none, makes a call, or finishes; others write where nobody
owns anything. -/
inductive Step : System ι δ κ α σ ρ → Label ι π ν → System ι δ κ α σ ρ → Prop
  | enter {system index} (name : δ) (waits : system.tasks index = .waiting)
      (vacant : territory.Vacant name system.store) :
      Step system (.task index)
        ⟨territory.make name system.store,
          Function.update system.tasks index (.working name (program index name))⟩
  | refuse {system index} (waits : system.tasks index = .waiting) :
      Step system (.task index)
        ⟨system.store, Function.update system.tasks index (.finished none (refused index))⟩
  | act {system index name request next}
      (works : system.tasks index = .working name (.call request next)) :
      Step system (.task index)
        ⟨(territory.perform request system.store).2,
          Function.update system.tasks index
            (.working name (next (territory.perform request system.store).1))⟩
  | leave {system index name result} (works : system.tasks index = .working name (.done result)) :
      Step system (.task index)
        ⟨system.store, Function.update system.tasks index (.finished (some name) result)⟩
  | others {system writes} (store : σ)
      (spares : ∀ place, Owned territory system place → writes place = none)
      (written : ∀ place,
        territory.look store place = (writes place).getD (territory.look system.store place)) :
      Step system (.others writes) ⟨store, system.tasks⟩

/-- Steps one after another. -/
inductive Runs : System ι δ κ α σ ρ → List (Label ι π ν) → System ι δ κ α σ ρ → Prop
  | start (system) : Runs system [] system
  | step {first labels middle label last} (before : Runs first labels middle)
      (next : Step territory program refused middle label last) :
      Runs first (labels ++ [label]) last

end Steps

variable {system later : System ι δ κ α σ ρ}

/-- One task and the store change. -/
theorem Isolated.update (isolated : Isolated territory program refused system) {index : ι}
    {store : σ} {task : Task δ κ α ρ} (fits : Fits territory program refused index store task)
    (spares : ∀ other name, other ≠ index → (system.tasks other).Owns name →
      territory.Agree name store system.store ∧ ¬ task.Owns name) :
    Isolated territory program refused ⟨store, Function.update system.tasks index task⟩ := by
  constructor
  · intro other
    dsimp only
    by_cases same : other = index
    · rw [same, Function.update_self]
      exact fits
    · rw [Function.update_of_ne same]
      exact (isolated.fits other).congr fun name owns => (spares other name same owns).1
  · intro first second name owns owns'
    dsimp only at owns owns'
    by_cases here : first = index
    · by_cases there : second = index
      · rw [here, there]
      · rw [Function.update_of_ne there] at owns'
        rw [here, Function.update_self] at owns
        exact absurd owns (spares second name there owns').2
    · rw [Function.update_of_ne here] at owns
      by_cases there : second = index
      · rw [there, Function.update_self] at owns'
        exact absurd owns' (spares first name here owns).2
      · rw [Function.update_of_ne there] at owns'
        exact isolated.apart owns owns'

/-- **One step keeps the tasks isolated.** -/
theorem Isolated.step {label : Label ι π ν}
    (confined : ∀ index name,
      (program index name).Confined (territory.inside name) territory.closing)
    (isolated : Isolated territory program refused system)
    (next : Step territory program refused system label later) :
    Isolated territory program refused later := by
  cases next with
  | enter name waits vacant =>
      have distinct : ∀ other own, (system.tasks other).Owns own → name ≠ own := by
        rintro other own owns rfl
        exact ((isolated.fits other).held owns).not_vacant vacant
      refine isolated.update (fits_enter (confined _ name) vacant) fun other own _ owns => ⟨?_, ?_⟩
      · exact Territory.agree_make (distinct other own owns) _
      · exact fun both => distinct other own owns both.1
  | refuse waits => exact isolated.update rfl fun _ _ _ _ => ⟨fun _ _ => rfl, False.elim⟩
  | @act index name request rest works =>
      have fits := isolated.fits index
      rw [works] at fits
      obtain ⟨inside, after⟩ := fits.act
      refine isolated.update after fun other own different owns => ?_
      have distinct : name ≠ own := by
        rintro rfl
        refine different (isolated.apart owns ?_)
        rw [works]
        exact ⟨rfl, trivial⟩
      exact ⟨Territory.agree_perform inside distinct _, fun both => distinct both.1⟩
  | @leave index name result works =>
      have fits := isolated.fits index
      rw [works] at fits
      exact isolated.update fits.leave fun _ _ _ _ => ⟨fun _ _ => rfl, False.elim⟩
  | others store spares written =>
      refine ⟨fun index => (isolated.fits index).congr fun name owns place member => ?_,
        isolated.apart⟩
      rw [written, spares place ⟨index, name, owns, member⟩, Option.getD_none]

/-- What others have left is there where nobody owns anything, and nothing where somebody does. -/
structure Undisturbed (territory : Territory δ π ν κ α σ) (system : System ι δ κ α σ ρ)
    (contents : π → ν) : Prop where
  owned : ∀ place, Owned territory system place → contents place = territory.nothing
  free : ∀ place, ¬ Owned territory system place →
    territory.look system.store place = contents place

/-- One task and the store change: what the task gives up is blank, what it takes was blank, and
nothing else changes. -/
theorem Undisturbed.update {contents : π → ν} (undisturbed : Undisturbed territory system contents)
    {index : ι} {store : σ} {task : Task δ κ α ρ}
    (gains : ∀ place, Covers territory task place →
      ¬ Covers territory (system.tasks index) place →
        territory.look system.store place = territory.nothing)
    (loses : ∀ place, Covers territory (system.tasks index) place →
      ¬ Covers territory task place → territory.look store place = territory.nothing)
    (keeps : ∀ place, ¬ Covers territory (system.tasks index) place →
      ¬ Covers territory task place →
        territory.look store place = territory.look system.store place) :
    Undisturbed territory ⟨store, Function.update system.tasks index task⟩ contents := by
  constructor
  · rintro place ⟨other, covers⟩
    dsimp only at covers
    by_cases owned : Owned territory system place
    · exact undisturbed.owned place owned
    · rw [← undisturbed.free place owned]
      by_cases same : other = index
      · rw [same, Function.update_self] at covers
        exact gains place covers fun before => owned ⟨index, before⟩
      · rw [Function.update_of_ne same] at covers
        exact absurd ⟨other, covers⟩ owned
  · intro place free
    have notTask : ¬ Covers territory task place := fun covers =>
      free ⟨index, by simpa only [Function.update_self] using covers⟩
    dsimp only
    by_cases before : Covers territory (system.tasks index) place
    · rw [loses place before notTask, undisturbed.owned place ⟨index, before⟩]
    · rw [keeps place before notTask]
      refine undisturbed.free place ?_
      rintro ⟨other, covers⟩
      have different : other ≠ index := by
        rintro rfl
        exact before covers
      exact free ⟨other, by simpa only [Function.update_of_ne different] using covers⟩

/-- **One step disturbs nothing**, if every program leaves its region blank when it runs alone. -/
theorem Undisturbed.step {label : Label ι π ν} {contents : π → ν}
    (tidy : ∀ index name, territory.Vacant name (territory.alone name (program index name)).2)
    (isolated : Isolated territory program refused system)
    (undisturbed : Undisturbed territory system contents)
    (next : Step territory program refused system label later) :
    Undisturbed territory later (overwritten [label] contents) := by
  cases next with
  | @enter index name waits vacant =>
      have active : (program index name).Active := by
        cases whole : program index name with
        | done result =>
            have blank := tidy index name
            have held : territory.Held name (territory.make name territory.blank) :=
              territory.make_root name _
            rw [whole] at blank
            exact absurd blank held.not_vacant
        | call request rest => trivial
      refine undisturbed.update ?_ ?_ ?_
      · rintro place ⟨own, ⟨rfl, _⟩, member⟩ _
        exact vacant place member
      · rintro place ⟨own, owns, _⟩
        rw [waits] at owns
        exact owns.elim
      · intro place _ free
        exact territory.make_outside _ fun member => free ⟨name, ⟨rfl, active⟩, member⟩
  | refuse waits =>
      refine undisturbed.update ?_ ?_ ?_
      · rintro place ⟨own, owns, _⟩
        exact owns.elim
      · rintro place ⟨own, owns, _⟩
        rw [waits] at owns
        exact owns.elim
      · exact fun _ _ _ => rfl
  | @act index name request rest works =>
      have fits := isolated.fits index
      rw [works] at fits
      refine undisturbed.update ?_ ?_ ?_
      · rintro place ⟨own, ⟨rfl, _⟩, member⟩ notBefore
        rw [works] at notBefore
        exact absurd ⟨name, ⟨rfl, trivial⟩, member⟩ notBefore
      · rintro place ⟨own, owns, member⟩ notAfter
        rw [works] at owns
        obtain ⟨rfl, _⟩ := owns
        have ends : ¬ (rest (territory.perform request system.store).1).Active :=
          fun active => notAfter ⟨name, ⟨rfl, active⟩, member⟩
        rw [fits.last ends place member]
        exact tidy index name place member
      · intro place notBefore _
        rw [works] at notBefore
        exact territory.perform_outside _ fits.act.1 fun member =>
          notBefore ⟨name, ⟨rfl, trivial⟩, member⟩
  | leave works =>
      refine undisturbed.update ?_ ?_ ?_
      · rintro place ⟨own, owns, _⟩
        exact owns.elim
      · rintro place ⟨own, owns, _⟩
        rw [works] at owns
        exact owns.2.elim
      · exact fun _ _ _ => rfl
  | others store spares written =>
      constructor
      · intro place owned
        have spared := spares place owned
        simp only [overwritten, spared, Option.getD_none]
        exact undisturbed.owned place owned
      · intro place free
        rw [written, undisturbed.free place free]
        rfl

/-! ## Runs -/

section Whole

variable {first last : System ι δ κ α σ ρ} {labels : List (Label ι π ν)}

theorem isolated_of_runs
    (confined : ∀ index name,
      (program index name).Confined (territory.inside name) territory.closing)
    (waiting : ∀ index, first.tasks index = .waiting)
    (runs : Runs territory program refused first labels last) :
    Isolated territory program refused last := by
  induction runs with
  | start => exact isolated_start waiting
  | step before next ih => exact ih.step confined next

/-- **The owned regions are different.** -/
theorem Runs.apart
    (confined : ∀ index name,
      (program index name).Confined (territory.inside name) territory.closing)
    (waiting : ∀ index, first.tasks index = .waiting)
    (runs : Runs territory program refused first labels last) {index other : ι} {name : δ}
    (owns : (last.tasks index).Owns name) (owns' : (last.tasks other).Owns name) : index = other :=
  (isolated_of_runs confined waiting runs).apart owns owns'

/-- **A task gives the result its program has alone.** -/
theorem Runs.isolated
    (confined : ∀ index name,
      (program index name).Confined (territory.inside name) territory.closing)
    (waiting : ∀ index, first.tasks index = .waiting)
    (runs : Runs territory program refused first labels last) {index : ι} {name : Option δ}
    {result : ρ} (finished : last.tasks index = .finished name result) :
    (name = none ∧ result = refused index) ∨
      ∃ own, name = some own ∧ result = (territory.alone own (program index own)).1 := by
  have fits := (isolated_of_runs confined waiting runs).fits index
  rw [finished] at fits
  cases name with
  | none => exact Or.inl ⟨rfl, fits⟩
  | some own => exact Or.inr ⟨own, rfl, fits⟩

/-- **Tidy tasks leave no trace**: where nobody owns anything, there is what others have left. -/
theorem Runs.undisturbed
    (confined : ∀ index name,
      (program index name).Confined (territory.inside name) territory.closing)
    (tidy : ∀ index name, territory.Vacant name (territory.alone name (program index name)).2)
    (waiting : ∀ index, first.tasks index = .waiting)
    (runs : Runs territory program refused first labels last) :
    Undisturbed territory last (overwritten labels (territory.look first.store)) := by
  induction runs with
  | start =>
      refine ⟨?_, fun _ _ => rfl⟩
      rintro place ⟨index, name, owns, _⟩
      rw [waiting] at owns
      exact owns.elim
  | step before next ih =>
      rw [overwritten_append]
      exact ih.step tidy (isolated_of_runs confined waiting before) next

/-- A step before a run. -/
theorem Runs.after {middle : System ι δ κ α σ ρ} {label : Label ι π ν}
    (next : Step territory program refused first label middle)
    (runs : Runs territory program refused middle labels last) :
    Runs territory program refused first (label :: labels) last := by
  induction runs with
  | start => exact .step (.start first) next
  | step before last ih => exact .step ih last

/-- One run after another. -/
theorem Runs.trans {middle : System ι δ κ α σ ρ} {more : List (Label ι π ν)}
    (before : Runs territory program refused first labels middle)
    (after : Runs territory program refused middle more last) :
    Runs territory program refused first (labels ++ more) last := by
  induction after with
  | start =>
      rw [List.append_nil]
      exact before
  | step _ next ih =>
      rw [← List.append_assoc]
      exact .step ih next

/-- **A task that gets its turns finishes**, and the other tasks stay where they are. -/
theorem exists_finished (territory : Territory δ π ν κ α σ)
    (program : ι → δ → Program κ α ρ) (refused : ι → ρ) {index : ι} {name : δ}
    {rest : Program κ α ρ}
    (works : first.tasks index = .working name rest) :
    ∃ labels last result, Runs territory program refused first labels last ∧
      (∀ label ∈ labels, label = .task index) ∧
      last.tasks = Function.update first.tasks index (.finished (some name) result) := by
  induction rest generalizing first with
  | done result =>
      exact ⟨[.task index], _, result, .step (.start first) (.leave works),
        fun label member => List.mem_singleton.mp member, rfl⟩
  | call request next ih =>
      have went : Step territory program refused first (.task index) _ := .act works
      have works' : (System.mk (territory.perform request first.store).2
          (Function.update first.tasks index
            (.working name (next (territory.perform request first.store).1)))).tasks index =
          .working name (next (territory.perform request first.store).1) := Function.update_self ..
      obtain ⟨labels, last, result, runs, own, tasks⟩ := ih _ works'
      refine ⟨.task index :: labels, last, result, runs.after went, ?_, ?_⟩
      · intro label member
        rcases List.mem_cons.mp member with rfl | later
        · rfl
        · exact own label later
      · rw [tasks, Function.update_idem]

end Whole

end Runs

end Regions
