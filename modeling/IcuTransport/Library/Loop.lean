import Mathlib.Algebra.BigOperators.Group.List.Basic
import Mathlib.Algebra.GroupWithZero.Nat
import Mathlib.Data.List.Basic

/-!
# Loops that return from the middle

A turn of a loop either finishes with a result or goes on with the next state. A run lists the
states it visits and gives its result; it takes a budget of turns and is `none` when that is used
up. The length of the budget does not matter otherwise (`run_mono`), and a rank that every turn
lowers bounds it (`run_of_rank`).

A run that comes back to where it was goes round until it is spent (`spent_of_repeated`).

Properties of whole runs come from one turn by `visits_induction`: what holds at the first visit
and is passed on by a turn holds at every visit. Two loops that go on alike visit the same states
(`run_agree`).
-/

set_option autoImplicit false

namespace TurnLoop

universe u v w

variable {σ : Type u} {ρ : Type v}

/-- What a turn of the loop does. -/
inductive Turn (σ : Type u) (ρ : Type v) where
  | finished (result : ρ)
  | next (state : σ)

/-- The states a run visits and its result, when the budget of turns is enough. -/
def run (turn : σ → Turn σ ρ) : ℕ → σ → Option (List σ × ρ)
  | 0, _ => none
  | fuel + 1, state =>
      match turn state with
      | .finished result => some ([state], result)
      | .next later => (run turn fuel later).map fun (visits, result) => (state :: visits, result)

/-- The turn with its result taken further. -/
def Turn.conclude {τ : Type w} (further : ρ → τ) : Turn σ ρ → Turn σ τ
  | .finished result => .finished (further result)
  | .next state => .next state

/-- The turn goes on, or finishes with a good result. -/
def Turn.Among (good : ρ → Prop) : Turn σ ρ → Prop
  | .finished result => good result
  | .next _ => True

section Runs

variable {turn : σ → Turn σ ρ}

/-- A run finishes at once or goes on. -/
theorem run_succ_eq_some {fuel : ℕ} {state : σ} {visits : List σ} {result : ρ}
    (ran : run turn (fuel + 1) state = some (visits, result)) :
    (visits = [state] ∧ turn state = .finished result) ∨
      ∃ later rest, turn state = .next later ∧ visits = state :: rest ∧
        run turn fuel later = some (rest, result) := by
  cases outcome : turn state with
  | finished found =>
      simp only [run, outcome, Option.some.injEq, Prod.mk.injEq] at ran
      obtain ⟨rfl, rfl⟩ := ran
      exact Or.inl ⟨rfl, rfl⟩
  | next later =>
      simp only [run, outcome, Option.map_eq_some_iff, Prod.exists, Prod.mk.injEq] at ran
      obtain ⟨rest, found, continued, rfl, rfl⟩ := ran
      exact Or.inr ⟨later, rest, rfl, rfl, continued⟩

/-- The first visit is the state the run starts from. -/
theorem visits_head {fuel : ℕ} {state : σ} {visits : List σ} {result : ρ}
    (ran : run turn fuel state = some (visits, result)) : visits[0]? = some state := by
  cases fuel with
  | zero => cases ran
  | succ fuel =>
      rcases run_succ_eq_some ran with ⟨rfl, _⟩ | ⟨_, _, _, rfl, _⟩
      · rfl
      · rfl

/-- **A turn leads from each visit to the one after it.** -/
theorem turn_of_visits {fuel : ℕ} {state : σ} {visits : List σ} {result : ρ}
    (ran : run turn fuel state = some (visits, result)) {index : ℕ} {first second : σ}
    (here : visits[index]? = some first) (after : visits[index + 1]? = some second) :
    turn first = .next second := by
  induction fuel generalizing state visits index with
  | zero => cases ran
  | succ fuel ih =>
      rcases run_succ_eq_some ran with ⟨rfl, _⟩ | ⟨later, rest, went, rfl, continued⟩
      · cases after
      · cases index with
        | zero =>
            obtain rfl := Option.some.inj here
            have found := visits_head continued
            rw [List.getElem?_cons_succ, found] at after
            rw [went, Option.some.inj after]
        | succ index => exact ih continued here after

/-- **The last visit is where the run finishes.** -/
theorem turn_of_last {fuel : ℕ} {state : σ} {visits : List σ} {result : ρ}
    (ran : run turn fuel state = some (visits, result)) :
    ∃ last, visits[visits.length - 1]? = some last ∧ turn last = .finished result := by
  induction fuel generalizing state visits with
  | zero => cases ran
  | succ fuel ih =>
      rcases run_succ_eq_some ran with ⟨rfl, finished⟩ | ⟨later, rest, went, rfl, continued⟩
      · exact ⟨state, rfl, finished⟩
      · obtain ⟨last, found, finished⟩ := ih continued
        refine ⟨last, ?_, finished⟩
        have positive : 0 < rest.length := by
          have head := visits_head continued
          exact (List.getElem?_eq_some_iff.mp head).1
        rw [List.length_cons, Nat.add_sub_cancel]
        obtain ⟨length, equal⟩ : ∃ length, rest.length = length + 1 := ⟨rest.length - 1, by omega⟩
        rw [equal, Nat.add_sub_cancel] at found
        rw [equal, List.getElem?_cons_succ]
        exact found

/-- A visit whose turn finishes is the last one. -/
theorem last_of_finished {fuel : ℕ} {state : σ} {visits : List σ} {result found : ρ}
    (ran : run turn fuel state = some (visits, result)) {index : ℕ} {visit : σ}
    (here : visits[index]? = some visit) (finished : turn visit = .finished found) :
    visits.length = index + 1 ∧ found = result := by
  have bound := (List.getElem?_eq_some_iff.mp here).1
  have length : visits.length = index + 1 := by
    by_contra longer
    have after := List.getElem?_eq_getElem (by omega : index + 1 < visits.length)
    cases finished.symm.trans (turn_of_visits ran here after)
  obtain ⟨last, atEnd, finished'⟩ := turn_of_last ran
  rw [length, Nat.add_sub_cancel, here] at atEnd
  obtain rfl := Option.some.inj atEnd
  exact ⟨length, Turn.finished.inj (finished.symm.trans finished')⟩

/-- A visit whose turn goes on is followed by the next one. -/
theorem visits_next {fuel : ℕ} {state : σ} {visits : List σ} {result : ρ}
    (ran : run turn fuel state = some (visits, result)) {index : ℕ} {first second : σ}
    (here : visits[index]? = some first) (went : turn first = .next second) :
    visits[index + 1]? = some second := by
  have bound := (List.getElem?_eq_some_iff.mp here).1
  by_cases more : index + 1 < visits.length
  · have after := List.getElem?_eq_getElem more
    have same := Turn.next.inj (went.symm.trans (turn_of_visits ran here after))
    rw [after, same]
  · obtain ⟨last, atEnd, finished⟩ := turn_of_last ran
    rw [(by omega : visits.length - 1 = index), here] at atEnd
    obtain rfl := Option.some.inj atEnd
    cases went.symm.trans finished

/-- Every visit after the first is reached from the one before it. -/
theorem exists_turn_of_visits {fuel : ℕ} {state : σ} {visits : List σ} {result : ρ}
    (ran : run turn fuel state = some (visits, result)) {index : ℕ} {visit : σ}
    (found : visits[index + 1]? = some visit) :
    ∃ before, visits[index]? = some before ∧ turn before = .next visit := by
  have bound : index < visits.length := by
    have := (List.getElem?_eq_some_iff.mp found).1
    omega
  have here : visits[index]? = some visits[index] := List.getElem?_eq_getElem bound
  exact ⟨visits[index], here, turn_of_visits ran here found⟩

/-- **Induction over the visits of a run.** -/
theorem visits_induction {fuel : ℕ} {state : σ} {visits : List σ} {result : ρ}
    (ran : run turn fuel state = some (visits, result)) {motive : ℕ → σ → Prop}
    (start : motive 0 state)
    (step : ∀ index first second, visits[index]? = some first →
      visits[index + 1]? = some second → turn first = .next second → motive index first →
        motive (index + 1) second) :
    ∀ {index : ℕ} {visit : σ}, visits[index]? = some visit → motive index visit := by
  intro index
  induction index with
  | zero =>
      intro visit found
      rw [visits_head ran] at found
      rw [← Option.some.inj found]
      exact start
  | succ index ih =>
      intro visit found
      obtain ⟨before, here, went⟩ := exists_turn_of_visits ran found
      exact step index before visit here found went (ih here)

/-- A larger budget changes nothing. -/
theorem run_mono {fuel more : ℕ} {state : σ} {visits : List σ} {result : ρ}
    (ran : run turn fuel state = some (visits, result)) (larger : fuel ≤ more) :
    run turn more state = some (visits, result) := by
  induction fuel generalizing more state visits with
  | zero => cases ran
  | succ fuel ih =>
      obtain ⟨more, rfl⟩ : ∃ rest, more = rest + 1 := ⟨more - 1, by omega⟩
      rcases run_succ_eq_some ran with ⟨rfl, finished⟩ | ⟨later, rest, went, rfl, continued⟩
      · simp only [run, finished]
      · have continued' := ih continued (Nat.le_of_succ_le_succ larger)
        simp only [run, went, continued', Option.map_some]

/-- **A rank that every turn lowers bounds the budget.** -/
theorem run_of_rank (rank : σ → ℕ)
    (lowers : ∀ state later, turn state = .next later → rank later < rank state) {fuel : ℕ}
    {state : σ} (enough : rank state < fuel) : ∃ outcome, run turn fuel state = some outcome := by
  induction fuel generalizing state with
  | zero => omega
  | succ fuel ih =>
      cases outcome : turn state with
      | finished result => exact ⟨([state], result), by simp only [run, outcome]⟩
      | next later =>
          have lower := lowers state later outcome
          obtain ⟨⟨visits, result⟩, continued⟩ := ih (by omega : rank later < fuel)
          exact ⟨(state :: visits, result), by simp only [run, outcome, continued, Option.map_some]⟩

/-- **What the turns of a run add up to.** Only the turn that finishes may exceed the limit of a
turn. -/
theorem sum_visits_le {cost : σ → ℕ} {limit excess : ℕ}
    (goesOn : ∀ state later, turn state = .next later → cost state ≤ limit)
    (finishes : ∀ state result, turn state = .finished result → cost state ≤ limit + excess)
    {fuel : ℕ} {state : σ} {visits : List σ} {result : ρ}
    (ran : run turn fuel state = some (visits, result)) :
    (visits.map cost).sum ≤ visits.length * limit + excess := by
  induction fuel generalizing state visits with
  | zero => cases ran
  | succ fuel ih =>
      rcases run_succ_eq_some ran with ⟨rfl, finished⟩ | ⟨later, rest, went, rfl, continued⟩
      · have here := finishes state result finished
        rw [List.map_singleton, List.sum_singleton, List.length_singleton, Nat.one_mul]
        exact here
      · have here := goesOn state later went
        have there := ih continued
        rw [List.map_cons, List.sum_cons, List.length_cons, Nat.succ_mul]
        omega

/-- **A run that repeats itself** goes on repeating until it is spent. States with one key go on
alike, unless one of them is spent. -/
theorem spent_of_repeated {κ : Type w} (key : σ → κ) (Spent : σ → Prop)
    (alike : ∀ {first second later}, key first = key second → turn first = .next later →
      (∃ later', turn second = .next later' ∧ key later' = key later) ∨
        ((∃ result, turn second = .finished result) ∧ Spent second))
    {fuel : ℕ} {state : σ} {visits : List σ} {result : ρ}
    (ran : run turn fuel state = some (visits, result)) {index period : ℕ} (positive : 0 < period)
    {first second : σ} (here : visits[index]? = some first)
    (again : visits[index + period]? = some second) (same : key first = key second) :
    (∀ step visit, visits[index + period + step]? = some visit →
      ∃ earlier, visits[index + step]? = some earlier ∧ key earlier = key visit) ∧
    ∃ last, visits[visits.length - 1]? = some last ∧ Spent last := by
  have repeats : ∀ step visit, visits[index + period + step]? = some visit →
      ∃ earlier, visits[index + step]? = some earlier ∧ key earlier = key visit := by
    intro step
    induction step with
    | zero =>
        intro visit found
        obtain rfl := Option.some.inj (again.symm.trans found)
        exact ⟨first, here, same⟩
    | succ step ih =>
        intro visit found
        obtain ⟨before, found', went⟩ := exists_turn_of_visits ran found
        obtain ⟨earlier, there, keys⟩ := ih before found'
        have inside : index + step + 1 < visits.length := by
          have bound := (List.getElem?_eq_some_iff.mp found).1
          omega
        have next := List.getElem?_eq_getElem inside
        rcases alike keys (turn_of_visits ran there next) with
          ⟨later', went', keys'⟩ | ⟨⟨_, finished⟩, _⟩
        · refine ⟨_, next, ?_⟩
          rw [← keys', Turn.next.inj (went'.symm.trans went)]
        · cases went.symm.trans finished
  refine ⟨repeats, ?_⟩
  obtain ⟨last, atEnd, finished⟩ := turn_of_last ran
  have bound := (List.getElem?_eq_some_iff.mp again).1
  obtain ⟨step, whole⟩ : ∃ step, visits.length - 1 = index + period + step :=
    Nat.exists_eq_add_of_le (by omega)
  obtain ⟨earlier, there, keys⟩ := repeats step last (whole ▸ atEnd)
  have inside : index + step + 1 < visits.length := by omega
  rcases alike keys (turn_of_visits ran there (List.getElem?_eq_getElem inside)) with
    ⟨later', went, _⟩ | ⟨_, spent⟩
  · cases went.symm.trans finished
  · exact ⟨last, atEnd, spent⟩

end Runs

/-- **A loop whose results are taken further** visits the same states. -/
theorem run_conclude {τ : Type w} {turn : σ → Turn σ τ} {other : σ → Turn σ ρ} {further : ρ → τ}
    (same : ∀ state, turn state = (other state).conclude further) (fuel : ℕ) (state : σ) :
    run turn fuel state =
      (run other fuel state).map fun (visits, result) => (visits, further result) := by
  induction fuel generalizing state with
  | zero => rfl
  | succ fuel ih =>
      rw [run, run, same]
      cases other state with
      | finished result => rfl
      | next later =>
          simp only [Turn.conclude, ih, Option.map_map]
          rfl

/-- **Loops that go on alike visit the same states.** -/
theorem run_agree {τ : Type w} {turn : σ → Turn σ ρ} {other : σ → Turn σ τ}
    (alike : ∀ state later, turn state = .next later ↔ other state = .next later) {fuel : ℕ}
    {state : σ} {visits : List σ} {result : ρ}
    (ran : run turn fuel state = some (visits, result)) :
    ∃ result', run other fuel state = some (visits, result') := by
  induction fuel generalizing state visits with
  | zero => cases ran
  | succ fuel ih =>
      rcases run_succ_eq_some ran with ⟨rfl, finished⟩ | ⟨later, rest, went, rfl, continued⟩
      · cases outcome : other state with
        | finished result' => exact ⟨result', by simp only [run, outcome]⟩
        | next later =>
            rw [(alike state later).mpr outcome] at finished
            cases finished
      · obtain ⟨result', continued'⟩ := ih continued
        exact ⟨result', by
          simp only [run, (alike state later).mp went, continued', Option.map_some]⟩

/-- **Loops that agree wherever both do well are the same run**, when both end with a good
result. -/
theorem run_unique {turn other : σ → Turn σ ρ} {good : ρ → Prop}
    (alike : ∀ state, (turn state).Among good → (other state).Among good →
      turn state = other state)
    {fuel fuel' : ℕ} {state : σ} {visits visits' : List σ} {result result' : ρ}
    (ran : run turn fuel state = some (visits, result))
    (ran' : run other fuel' state = some (visits', result')) (isGood : good result)
    (isGood' : good result') : visits = visits' ∧ result = result' := by
  induction fuel generalizing fuel' state visits visits' with
  | zero => cases ran
  | succ fuel ih =>
      cases fuel' with
      | zero => cases ran'
      | succ fuel' =>
          have well : (turn state).Among good := by
            rcases run_succ_eq_some ran with ⟨_, finished⟩ | ⟨later, _, went, _, _⟩
            · rw [finished]
              exact isGood
            · rw [went]
              exact trivial
          have well' : (other state).Among good := by
            rcases run_succ_eq_some ran' with ⟨_, finished⟩ | ⟨later, _, went, _, _⟩
            · rw [finished]
              exact isGood'
            · rw [went]
              exact trivial
          have same := alike state well well'
          rcases run_succ_eq_some ran with ⟨rfl, finished⟩ | ⟨later, rest, went, rfl, continued⟩
          · rcases run_succ_eq_some ran' with ⟨rfl, finished'⟩ | ⟨later', _, went', _, _⟩
            · exact ⟨rfl, Turn.finished.inj (finished.symm.trans (same.trans finished'))⟩
            · cases finished.symm.trans (same.trans went')
          · rcases run_succ_eq_some ran' with ⟨_, finished'⟩ | ⟨later', _, went', rfl, continued'⟩
            · cases went.symm.trans (same.trans finished')
            · obtain rfl := Turn.next.inj (went.symm.trans (same.trans went'))
              obtain ⟨rfl, equal⟩ := ih continued continued'
              exact ⟨rfl, equal⟩

end TurnLoop
