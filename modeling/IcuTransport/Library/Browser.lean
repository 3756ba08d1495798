import IcuTransport.Library.Loop

/-!
# Browsing

At a place there is a document, or it has moved: to another place, or to nowhere. `browse` follows
the moves from a place until it comes to a document, and gives up when it is led nowhere or a budget
of moves is used up. `trail` lists the places that it comes to on the way.

A loop follows pages when each of its states is at a place, and its turn does there what the page
says (`Follows`). Such a loop visits one state for each place of the trail, in order, and its result
presents what browsing gives (`run_browses`).
-/

set_option autoImplicit false

namespace Browser

open TurnLoop

universe u v w x

variable {υ : Type u} {δ : Type v}

/-- What is found at a place: a document, or where it has moved to, if anywhere. -/
inductive Page (υ : Type u) (δ : Type v) where
  | document (content : δ)
  | moved (next : Option υ)

section Browsing

variable (pages : υ → Page υ δ)

/-- The document that is come to from a place, with a budget of moves. -/
def browse : ℕ → υ → Option δ
  | budget, place =>
      match pages place with
      | .document content => some content
      | .moved next =>
          match budget with
          | 0 => none
          | budget + 1 => next.bind (browse budget)

/-- The places that are come to. -/
def trail : ℕ → υ → List υ
  | budget, place =>
      place ::
        match pages place with
        | .document _ => []
        | .moved next =>
            match budget with
            | 0 => []
            | budget + 1 => next.elim [] (trail budget)

variable {pages}

theorem browse_document {budget : ℕ} {place : υ} {content : δ}
    (found : pages place = .document content) : browse pages budget place = some content := by
  rw [browse, found]

/-- A move that leads nowhere, or is one too many. -/
theorem browse_gaveUp {budget : ℕ} {place : υ} {next : Option υ} (found : pages place = .moved next)
    (ended : budget = 0 ∨ next = none) : browse pages budget place = none := by
  rw [browse, found]
  cases budget with
  | zero => rfl
  | succ budget =>
      rcases ended with spent | rfl
      · cases spent
      · rfl

theorem browse_moved {budget : ℕ} {place next : υ} (found : pages place = .moved (some next)) :
    browse pages (budget + 1) place = browse pages budget next := by
  rw [browse, found]
  rfl

theorem trail_document {budget : ℕ} {place : υ} {content : δ}
    (found : pages place = .document content) : trail pages budget place = [place] := by
  rw [trail, found]

theorem trail_gaveUp {budget : ℕ} {place : υ} {next : Option υ} (found : pages place = .moved next)
    (ended : budget = 0 ∨ next = none) : trail pages budget place = [place] := by
  rw [trail, found]
  cases budget with
  | zero => rfl
  | succ budget =>
      rcases ended with spent | rfl
      · cases spent
      · rfl

theorem trail_moved {budget : ℕ} {place next : υ} (found : pages place = .moved (some next)) :
    trail pages (budget + 1) place = place :: trail pages budget next := by
  rw [trail, found]
  rfl

/-- A trail begins where it is asked for. -/
theorem mem_trail (budget : ℕ) (place : υ) : place ∈ trail pages budget place := by
  rw [trail]
  exact List.mem_cons_self

end Browsing

/-! ## Loops that follow pages -/

/-- A loop follows pages: at a document it finishes with a result that presents it, where it is led
nowhere or has no moves left it finishes with a result that presents nothing, and otherwise it goes
on to a state at the next place, with one move less. -/
structure Follows {σ : Type w} {ρ : Type x} (pages : υ → Page υ δ) (turn : σ → Turn σ ρ)
    (arrived : ℕ → σ → υ → Prop) (presents : Option δ → ρ → Prop) : Prop where
  document : ∀ {budget state place content}, arrived budget state place →
    pages place = .document content →
      ∃ result, turn state = .finished result ∧ presents (some content) result
  gaveUp : ∀ {budget state place next}, arrived budget state place → pages place = .moved next →
    budget = 0 ∨ next = none → ∃ result, turn state = .finished result ∧ presents none result
  moved : ∀ {budget state place next}, arrived (budget + 1) state place →
    pages place = .moved (some next) → ∃ later, turn state = .next later ∧ arrived budget later next

section Follows

variable {σ : Type w} {ρ : Type x} {pages : υ → Page υ δ} {turn : σ → Turn σ ρ}
  {arrived : ℕ → σ → υ → Prop} {presents : Option δ → ρ → Prop}

/-- The run of a loop follows the pages from a place. -/
def Browses (pages : υ → Page υ δ) (turn : σ → Turn σ ρ) (arrived : ℕ → σ → υ → Prop)
    (presents : Option δ → ρ → Prop) (budget : ℕ) (state : σ) (place : υ) : Prop :=
  ∃ visits result, run turn (budget + 1) state = some (visits, result) ∧
    presents (browse pages budget place) result ∧
    List.Forall₂ (fun visit place => ∃ left, arrived left visit place) visits
      (trail pages budget place)

theorem browses_of_finished {budget : ℕ} {state : σ} {place : υ} {result : ρ}
    (here : arrived budget state place) (ended : turn state = .finished result)
    (single : trail pages budget place = [place])
    (presented : presents (browse pages budget place) result) :
    Browses pages turn arrived presents budget state place := by
  refine ⟨[state], result, ?_, presented, ?_⟩
  · rw [run, ended]
  · rw [single]
    exact List.Forall₂.cons ⟨budget, here⟩ List.Forall₂.nil

theorem browses_of_next {budget : ℕ} {state later : σ} {place next : υ}
    (here : arrived (budget + 1) state place) (page : pages place = .moved (some next))
    (went : turn state = .next later)
    (onward : Browses pages turn arrived presents budget later next) :
    Browses pages turn arrived presents (budget + 1) state place := by
  obtain ⟨visits, result, ran, presented, alike⟩ := onward
  refine ⟨state :: visits, result, ?_, ?_, ?_⟩
  · rw [run, went]
    exact congrArg (Option.map _) ran
  · rw [browse_moved page]
    exact presented
  · rw [trail_moved page]
    exact List.Forall₂.cons ⟨budget + 1, here⟩ alike

/-- **A loop that follows pages browses them.** -/
theorem run_browses (follows : Follows pages turn arrived presents) {budget : ℕ} {state : σ}
    {place : υ} (here : arrived budget state place) :
    Browses pages turn arrived presents budget state place := by
  induction budget using Nat.strongRecOn generalizing state place with
  | _ budget ih =>
      cases page : pages place with
      | document content =>
          obtain ⟨result, ended, presented⟩ := follows.document here page
          rw [← browse_document page] at presented
          exact browses_of_finished here ended (trail_document page) presented
      | moved next =>
          by_cases given : budget = 0 ∨ next = none
          · obtain ⟨result, ended, presented⟩ := follows.gaveUp here page given
            rw [← browse_gaveUp page given] at presented
            exact browses_of_finished here ended (trail_gaveUp page given) presented
          · rw [not_or] at given
            obtain ⟨left, rfl⟩ := Nat.exists_eq_succ_of_ne_zero given.1
            obtain ⟨onward, rfl⟩ := Option.ne_none_iff_exists'.mp given.2
            obtain ⟨later, went, there⟩ := follows.moved here page
            exact browses_of_next here page went (ih left (Nat.lt_succ_self left) there)

end Follows

end Browser
