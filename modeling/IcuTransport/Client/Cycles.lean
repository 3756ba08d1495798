import IcuTransport.Client.Budget

/-!
# Redirects in a circle

A server that gives equal answers to equal exchanges can send a client round in a circle. The
program keeps no record of where it has been: it goes round until its budget of redirects is spent,
and then gives the redirect up (`redirect_circle_given_up`).
-/

set_option autoImplicit false

namespace IcuTransport.Client

open Ascii TextScan TurnLoop Wire Redirect Capture

/-- The servers do not count exchanges, and there is always memory. -/
structure Stateless (world : World) : Prop where
  server : ∀ hop exchange, world.server hop exchange = world.server 0 exchange
  allocates : ∀ count, world.allocates count = true

section Circles

variable {world : World} {call : Call} {first second later : LoopState}

/-- Equal exchanges are redirected alike. -/
theorem followable_of_exchange (stateless : Stateless world)
    (same : first.exchange call = second.exchange call) :
    followable world call first = followable world call second := by
  have request : first.request = second.request := congrArg Exchange.request same
  have answer : world.server first.redirects (first.exchange call) =
      world.server second.redirects (second.exchange call) := by
    rw [stateless.server first.redirects, stateless.server second.redirects, same]
  rw [followable, followable, answer, request]

/-- Equal exchanges are followed by equal exchanges. -/
theorem follow_of_exchange (stateless : Stateless world)
    (same : first.exchange call = second.exchange call) {head : ResponseHead}
    (follows : follow world call first head = some later) :
    follow world call second head = some { later with redirects := second.redirects + 1 } := by
  have request : first.request = second.request := congrArg Exchange.request same
  have current : first.current = second.current := congrArg Exchange.endpoint same
  obtain ⟨resolved, _, rewritten, _⟩ := follow_eq_some_iff.mp follows
  rw [request, current] at resolved rewritten
  exact follow_eq_some_iff.mpr ⟨resolved, stateless.allocates _, rewritten, rfl⟩

/-- **Equal exchanges go on alike**, unless the budget is spent. -/
theorem turn_of_exchange_eq (stateless : Stateless world)
    (same : first.exchange call = second.exchange call)
    (went : turn world call first = .next later) :
    (∃ later', turn world call second = .next later' ∧
      later'.exchange call = later.exchange call) ∨
    ((∃ result, turn world call second = .finished result) ∧
      maxRedirects ≤ second.redirects ∧ (followable world call second).isSome = true) := by
  obtain ⟨_, head, followed, found⟩ := turn_eq_next_iff.mp went
  rw [followable_of_exchange stateless same] at followed
  have follows := follow_of_exchange stateless same found
  by_cases left : second.redirects < maxRedirects
  · exact Or.inl ⟨_, turn_eq_next_iff.mpr ⟨left, head, followed, follows⟩, rfl⟩
  · right
    refine ⟨?_, Nat.le_of_not_lt left, by rw [followed, Option.isSome_some]⟩
    cases outcome : turn world call second with
    | next later' => exact absurd (redirects_of_turn outcome).1 left
    | finished result => exact ⟨result, rfl⟩

end Circles

/-- **A circle of redirects is given up after nine exchanges.** Let the servers give equal answers
to equal exchanges. If a run makes an exchange twice, then it repeats all the exchanges between the
two, in order, until it has made nine; its result is 8, and it delivers nothing. -/
theorem redirect_circle_given_up (fuel : ℕ) (world : World) (call : Call) (outcome : Outcome)
    (stateless : Stateless world) (ran : sendRequest fuel world call = some outcome)
    (hop period : ℕ) (positive : 0 < period) (exchange : Exchange)
    (sent : outcome.exchanges[hop]? = some exchange)
    (again : outcome.exchanges[hop + period]? = some exchange) :
    outcome.result = 8 ∧ outcome.exchanges.length = 9 ∧ outcome.delivery = .nothing ∧
      ∀ step, hop + period + step < 9 →
        outcome.exchanges[hop + period + step]? = outcome.exchanges[hop + step]? := by
  rcases sendRequest_eq_some ran with ⟨_, _, _, rfl⟩ | ⟨state, visits, _, started, finished, all⟩
  · cases sent
  · obtain ⟨first, here, same⟩ := visit_of_exchange all sent
    obtain ⟨second, there, same'⟩ := visit_of_exchange all again
    obtain ⟨repeats, last, atEnd, spent, redirected⟩ := spent_of_repeated (LoopState.exchange call)
      (fun state => maxRedirects ≤ state.redirects ∧ (followable world call state).isSome = true)
      (turn_of_exchange_eq stateless) finished positive here there (same.trans same'.symm)
    have counted := visits_redirects finished started.redirects atEnd
    have bound := length_visits finished started.redirects
    have limit : maxRedirects = 8 := rfl
    have length : visits.length = 9 := by omega
    obtain ⟨final, atEnd', ended⟩ := turn_of_last finished
    obtain rfl := Option.some.inj (atEnd.symm.trans atEnd')
    obtain ⟨head, followed⟩ := Option.isSome_iff_exists.mp redirected
    obtain ⟨result, delivery⟩ := finished_of_followable followed ended
    refine ⟨result, by rw [all, List.length_map, length], delivery, fun step inside => ?_⟩
    have found := List.getElem?_eq_getElem (by omega : hop + period + step < visits.length)
    obtain ⟨earlier, before, keys⟩ := repeats step _ found
    rw [all, List.getElem?_map, List.getElem?_map, found, before, Option.map_some, Option.map_some,
      keys]

/-- A server that redirects every request to one path. -/
def circling : World := { redirectingOnce with server := fun _ _ => redirectAnswer }

theorem redirect_circle_given_up_circling :
    ∃ outcome, sendRequest 9 circling authorizedCall = some outcome ∧ outcome.result = 8 ∧
      outcome.exchanges[8]? = some followedExchange := by
  have stateless : Stateless circling := ⟨fun _ _ => rfl, fun _ => rfl⟩
  obtain ⟨outcome, ran⟩ := Option.isSome_iff_exists.mp
    (by decide +kernel : (sendRequest 9 circling authorizedCall).isSome = true)
  have sent : ∀ hop : ℕ, (sendRequest 9 circling authorizedCall).bind
      (fun outcome : Outcome => outcome.exchanges[hop]?) = outcome.exchanges[hop]? :=
    fun hop => by rw [ran, Option.bind_some]
  have one : outcome.exchanges[1]? = some followedExchange := by
    rw [← sent]
    decide +kernel
  have two : outcome.exchanges[2]? = some followedExchange := by
    rw [← sent]
    decide +kernel
  obtain ⟨result, _, _, repeats⟩ := redirect_circle_given_up 9 circling authorizedCall outcome
    stateless ran 1 1 Nat.one_pos followedExchange one two
  refine ⟨outcome, ran, result, ?_⟩
  rw [repeats 6 (by decide), repeats 5 (by decide), repeats 4 (by decide), repeats 3 (by decide),
    repeats 2 (by decide), repeats 1 (by decide)]
  exact two

end IcuTransport.Client
