import IcuTransport.Client.Chain

/-!
# The budget of redirects

The loop of the program has no bound of its own: it returns because every turn that goes on counts
a redirect. This module says how many exchanges a run makes and what each of them sends, and which
results the parts of a run can give. The result of a spent budget is told apart from the other
results of a redirect that is not followed by the number of exchanges.
-/

set_option autoImplicit false

namespace IcuTransport.Client

open Ascii TextScan TurnLoop Wire Redirect Capture

/-! ## Results -/

/-- The failure codes of an exchange. -/
theorem oneRequest_error {answer : Answer} {code : ℕ} (failed : oneRequest answer = .error code) :
    code ∈ [4, 5, 6, 7, 11, 13, 14] := by
  cases answer with
  | refused failure =>
      cases failed
      cases failure <;> decide
  | unsent =>
      cases failed
      decide
  | answered connection =>
      unfold oneRequest at failed
      dsimp only at failed
      split at failed
      · rename_i reason _
        cases failed
        cases reason with
        | readFailed timedOut => cases timedOut <;> decide
        | _ => decide
      · cases failed

theorem copyLoop_failureCode {toFile : Bool} {stream : OutputStream} {ending : Ending} {failure : ℕ}
    {chunks : List Chunk} {writes received : ℕ} {written : Bytes} :
    (copyLoop toFile stream ending failure chunks writes received written).failureCode ∈
      [failure, 7, 11, 12] := by
  induction chunks generalizing writes received written with
  | nil =>
      cases ending with
      | closed => simp [copyLoop]
      | failed timedOut => cases timedOut <;> simp [copyLoop, readFailureCode]
  | cons chunk rest ih =>
      unfold copyLoop
      split
      · simp
      · split
        · exact ih
        · simp

theorem copyRemainingBody_failureCode {toFile : Bool} {stream : OutputStream}
    {connection : Connection} {failure : ℕ} {bodyPrefix : Bytes} :
    (copyRemainingBody toFile stream connection failure bodyPrefix).failureCode ∈
      [failure, 7, 11, 12] := by
  unfold copyRemainingBody
  split
  · simp
  · split
    · exact copyLoop_failureCode
    · split
      · exact copyLoop_failureCode
      · simp

/-- The results of a delivery. -/
theorem deliveryResult_mem {captures copied metadataWritten : Bool} {head : ResponseHead}
    {copyFailure received : ℕ} (codes : copyFailure ∈ [13, 7, 11, 12]) :
    deliveryResult captures head copied metadataWritten copyFailure received ∈
      [0, 7, 9, 10, 11, 12, 13] := by
  unfold deliveryResult
  split
  · split
    · rename_i failed
      simp only [List.mem_cons, List.not_mem_nil, or_false] at codes ⊢
      omega
    · decide
  · split
    · decide
    · split <;> decide

theorem deliver_mem {world : World} {call : Call} {response : Response} :
    (deliver world call response).1 ∈ [0, 7, 9, 10, 11, 12, 13] := by
  unfold deliver
  split
  · exact deliveryResult_mem copyRemainingBody_failureCode
  · unfold deliverToFiles
    split
    · decide
    · split
      · decide
      · split
        · decide
        · exact deliveryResult_mem copyRemainingBody_failureCode

theorem exchangeFailure_mem {captures useTls : Bool} {code : ℕ}
    (codes : code ∈ [4, 5, 6, 7, 11, 13, 14]) :
    exchangeFailure captures useTls code ∈ [4, 5, 6, 7, 11, 13, 14] := by
  unfold exchangeFailure
  split
  · decide
  · split
    · decide
    · exact codes

/-- **The results of a turn that finishes**: 8 stands for a redirect that is not followed, and a
checked request is never refused as invalid. -/
theorem turn_result {world : World} {call : Call} {state : LoopState} {result : ℕ}
    {delivery : Delivery} (finished : turn world call state = .finished (result, delivery)) :
    result ≠ 2 ∧ result ≠ 3 ∧ (result = 8 → (followable world call state).isSome = true) := by
  rcases turn_eq_finished finished with
    ⟨code, failed, rfl, _⟩ | ⟨response, _, _, delivered⟩ | ⟨head, followed, rfl, _⟩
  · have codes : exchangeFailure call.bodyOutputPath.isSome state.current.useTls code ∈
        [4, 5, 6, 7, 11, 13, 14] := exchangeFailure_mem (oneRequest_error failed)
    simp only [List.mem_cons, List.not_mem_nil, or_false] at codes
    refine ⟨by omega, by omega, fun absurdity => by omega⟩
  · have codes : (deliver world call response).1 ∈ [0, 7, 9, 10, 11, 12, 13] := deliver_mem
    rw [← delivered] at codes
    simp only [List.mem_cons, List.not_mem_nil, or_false] at codes
    refine ⟨by omega, by omega, fun absurdity => by omega⟩
  · exact ⟨by decide, by decide, fun _ => by rw [followed, Option.isSome_some]⟩

/-! ## Following redirects -/

/-- The state after one response that is a redirect to be followed and whose location was
followed. -/
def followOnce (world : World) (call : Call) (state : LoopState) : Option LoopState :=
  (followable world call state).bind (follow world call state)

/-- The state after so many such responses in a row. -/
def followed (world : World) (call : Call) : ℕ → LoopState → Option LoopState
  | 0, state => some state
  | count + 1, state => (followed world call count state).bind (followOnce world call)

section Visits

variable {fuel : ℕ} {world : World} {call : Call} {state : LoopState} {visits : List LoopState}
  {result : ℕ × Delivery}

theorem followOnce_of_turn {first second : LoopState}
    (went : turn world call first = .next second) : followOnce world call first = some second := by
  obtain ⟨_, head, followable, follows⟩ := turn_eq_next_iff.mp went
  exact Option.bind_eq_some_iff.mpr ⟨head, followable, follows⟩

/-- The visits of a run count the redirects. -/
theorem visits_redirects (ran : run (turn world call) fuel state = some (visits, result))
    (fresh : state.redirects = 0) {index : ℕ} {visit : LoopState}
    (found : visits[index]? = some visit) : visit.redirects = index := by
  refine visits_induction ran (motive := fun index visit => visit.redirects = index) fresh ?_ found
  intro index first second _ _ went counted
  rw [(redirects_of_turn went).2, counted]

/-- **A run makes at most nine exchanges.** -/
theorem length_visits (ran : run (turn world call) fuel state = some (visits, result))
    (fresh : state.redirects = 0) : visits.length ≤ maxRedirects + 1 := by
  by_contra long
  have bound : maxRedirects + 1 < visits.length := by omega
  have last := List.getElem?_eq_getElem bound
  obtain ⟨before, here, went⟩ := exists_turn_of_visits ran last
  have spent := (redirects_of_turn went).1
  rw [visits_redirects ran fresh here] at spent
  exact lt_irrefl _ spent

/-- **A run returns**, whatever the servers do. -/
theorem run_returns (fresh : state.redirects = 0) (enough : maxRedirects + 1 ≤ fuel) :
    ∃ outcome, run (turn world call) fuel state = some outcome := by
  refine run_of_rank (fun state => maxRedirects - state.redirects) ?_ (by omega)
  intro first second went
  obtain ⟨left, counted⟩ := redirects_of_turn went
  omega

/-- **The visits of a run are the states that follow each other**, up to the budget. -/
theorem visits_eq_followed (ran : run (turn world call) fuel state = some (visits, result))
    (fresh : state.redirects = 0) {index : ℕ} (within : index ≤ maxRedirects) :
    visits[index]? = followed world call index state := by
  induction index with
  | zero => exact visits_head ran
  | succ index ih =>
      have here := ih (by omega)
      refine Option.ext fun later => ?_
      constructor
      · intro found
        obtain ⟨before, here', went⟩ := exists_turn_of_visits ran found
        rw [followed, ← here, here']
        exact followOnce_of_turn went
      · intro found
        obtain ⟨before, reached, follows⟩ := Option.bind_eq_some_iff.mp found
        rw [← here] at reached
        obtain ⟨head, followable, resolved⟩ := Option.bind_eq_some_iff.mp follows
        have left : before.redirects < maxRedirects := by
          rw [visits_redirects ran fresh reached]
          omega
        exact visits_next ran reached (turn_eq_next_iff.mpr ⟨left, head, followable, resolved⟩)

/-- **When the budget is spent**: nine visits, the last of which is again a redirect. -/
theorem budget_spent_iff {code : ℕ} {delivery : Delivery}
    (ran : run (turn world call) fuel state = some (visits, code, delivery))
    (fresh : state.redirects = 0) :
    (code = 8 ∧ visits.length = maxRedirects + 1) ↔
      ∃ last, followed world call maxRedirects state = some last ∧
        (followable world call last).isSome = true := by
  constructor
  · rintro ⟨rfl, length⟩
    obtain ⟨last, atEnd, finished⟩ := turn_of_last ran
    rw [length, Nat.add_sub_cancel] at atEnd
    refine ⟨last, ?_, (turn_result finished).2.2 rfl⟩
    rw [← visits_eq_followed ran fresh le_rfl]
    exact atEnd
  · rintro ⟨last, reached, redirects⟩
    rw [← visits_eq_followed ran fresh le_rfl] at reached
    obtain ⟨head, followed⟩ := Option.isSome_iff_exists.mp redirects
    have finished : turn world call last = .finished (8, .nothing) := by
      cases outcome : turn world call last with
      | next later =>
          have spent := (redirects_of_turn outcome).1
          rw [visits_redirects ran fresh reached] at spent
          exact absurd spent (lt_irrefl _)
      | finished result =>
          obtain ⟨code', delivery'⟩ := result
          obtain ⟨rfl, rfl⟩ := finished_of_followable followed outcome
          rfl
    obtain ⟨length, same⟩ := last_of_finished ran reached finished
    exact ⟨(Prod.mk.inj same).1.symm, length⟩

end Visits

/-! ## Exchanges -/

section Exchanges

variable {fuel : ℕ} {world : World} {call : Call} {state : LoopState} {visits : List LoopState}
  {result : ℕ × Delivery}

/-- Every exchange after the first sends a GET without a body. -/
theorem redirected_exchange (started : Started call state)
    (ran : run (turn world call) fuel state = some (visits, result)) {index : ℕ} {visit : LoopState}
    (found : visits[index + 1]? = some visit) : isGet visit.request = true ∧ call.body = [] := by
  obtain ⟨before, _, went⟩ := exists_turn_of_visits ran found
  obtain ⟨authority, _, written⟩ := (hop_of_turn went).edits.written
  refine ⟨?_, ?_⟩
  · rw [written, redirectedRequest, joinLines_cons, List.append_assoc, List.append_assoc]
    exact isPrefixOf_requestLine _ _
  · have second : 1 < visits.length := by
      have := (List.getElem?_eq_some_iff.mp found).1
      omega
    obtain ⟨first, atStart, went'⟩ := exists_turn_of_visits ran (List.getElem?_eq_getElem second)
    rw [visits_head ran] at atStart
    obtain rfl := Option.some.inj atStart
    exact started.noBody (started.request ▸ (hop_of_turn went').isGet)

/-- A POST is not redirected. -/
theorem single_visit (started : Started call state) (post : isGet call.requestHeaders = false)
    (ran : run (turn world call) fuel state = some (visits, result)) : visits = [state] := by
  cases fuel with
  | zero => cases ran
  | succ fuel =>
      rcases run_succ_eq_some ran with ⟨alone, _⟩ | ⟨later, _, went, _⟩
      · exact alone
      · have get := (hop_of_turn went).isGet
        rw [started.request, post] at get
        cases get

end Exchanges

/-- **The program returns**: nine turns are enough, and more give the same outcome. -/
theorem sendRequest_returns (world : World) (call : Call) :
    ∃ outcome, ∀ fuel, 9 ≤ fuel → sendRequest fuel world call = some outcome := by
  cases began : start world call with
  | error code => exact ⟨⟨[], code, .nothing⟩, fun fuel _ => by simp only [sendRequest, began]⟩
  | ok state =>
      have fresh := (started_of_start began).redirects
      obtain ⟨⟨visits, result, delivery⟩, ran⟩ : ∃ outcome,
          run (turn world call) (maxRedirects + 1) state = some outcome :=
        run_returns fresh le_rfl
      refine ⟨⟨visits.map (LoopState.exchange call), result, delivery⟩, fun fuel enough => ?_⟩
      simp only [sendRequest, began, run_mono ran enough, Option.map_some]

theorem isGet_of_post {request : Bytes} (post : (ascii "POST ").isPrefixOf request = true) :
    isGet request = false := by
  obtain ⟨rest, rfl⟩ := List.isPrefixOf_iff_prefix.mp post
  rfl

/-- **The budget of redirects and the confinement of the body.** A run returns after at most nine
exchanges. A call that is refused as invalid makes none, and a POST exactly one, at its own
endpoint. Only the first exchange sends a body, and every later one is a GET. The budget is spent
exactly when eight redirects in a row were followed and the ninth response is one more. -/
theorem redirect_budget (world : World) (call : Call) :
    (∃ outcome, ∀ fuel, 9 ≤ fuel → sendRequest fuel world call = some outcome) ∧
    ∀ fuel outcome, sendRequest fuel world call = some outcome →
      outcome.exchanges.length ≤ 9 ∧
      (outcome.result = 2 ∨ outcome.result = 3 → outcome.exchanges = []) ∧
      ((ascii "POST ").isPrefixOf call.requestHeaders = true →
        ((outcome.result = 2 ∨ outcome.result = 3) ∧ outcome.exchanges = []) ∨
        ∃ endpoint : Endpoint, endpoint.useTls = call.useTls ∧ endpoint.port = call.port ∧
          endpoint.host.bytes = call.host ∧
          outcome.exchanges = [⟨endpoint, call.requestHeaders, call.body⟩]) ∧
      (∀ hop exchange, 1 ≤ hop → outcome.exchanges[hop]? = some exchange →
        isGet exchange.request = true ∧ exchange.body = []) ∧
      ((outcome.result = 8 ∧ outcome.exchanges.length = 9) ↔
        ∃ state last, start world call = .ok state ∧ followed world call 8 state = some last ∧
          (followable world call last).isSome = true) := by
  constructor
  · exact sendRequest_returns world call
  · intro fuel outcome ran
    rcases sendRequest_eq_some ran with
      ⟨code, refused, invalid, rfl⟩ | ⟨state, visits, began, started, finished, all⟩
    · refine ⟨Nat.zero_le _, fun _ => rfl, fun _ => Or.inl ⟨invalid, rfl⟩, ?_, ?_⟩
      · intro hop exchange _ sent
        cases sent
      · refine ⟨fun spent => absurd spent.2 (Nat.zero_ne_add_one 8), ?_⟩
        rintro ⟨state, _, began, _⟩
        cases refused.symm.trans began
    · have length : outcome.exchanges.length = visits.length := by rw [all, List.length_map]
      obtain ⟨last, _, atEnd⟩ := turn_of_last finished
      obtain ⟨notTwo, notThree, _⟩ := turn_result atEnd
      refine ⟨?_, fun invalid => ?_, fun post => Or.inr ?_, ?_, ?_⟩
      · rw [length]
        exact length_visits finished started.redirects
      · exact absurd invalid (not_or.mpr ⟨notTwo, notThree⟩)
      · rw [all, single_visit started (isGet_of_post post) finished]
        refine ⟨state.current, started.useTls, started.port, started.host, ?_⟩
        rw [List.map_singleton, LoopState.exchange, started.request]
      · intro hop exchange redirected sent
        obtain ⟨index, rfl⟩ := Nat.exists_eq_add_of_le' redirected
        obtain ⟨visit, found, rfl⟩ := visit_of_exchange all sent
        exact redirected_exchange started finished found
      · rw [length]
        refine (budget_spent_iff finished started.redirects).trans ⟨?_, ?_⟩
        · rintro ⟨last, reached, redirects⟩
          exact ⟨state, last, began, reached, redirects⟩
        · rintro ⟨state', last, began', reached, redirects⟩
          cases began.symm.trans began'
          exact ⟨last, reached, redirects⟩

/-- A server that answers every request with a redirect. -/
def alwaysRedirecting : World :=
  { redirectingOnce with server := fun _ _ => redirectAnswer }

theorem redirect_budget_always_redirecting :
    ∃ outcome, (∀ fuel, 9 ≤ fuel → sendRequest fuel alwaysRedirecting authorizedCall =
      some outcome) ∧
      outcome.result = 8 ∧ outcome.exchanges.length = 9 := by
  obtain ⟨outcome, returns⟩ := (redirect_budget alwaysRedirecting authorizedCall).1
  refine ⟨outcome, returns, ?_⟩
  refine ((redirect_budget alwaysRedirecting authorizedCall).2 9 outcome
    (returns 9 le_rfl)).2.2.2.2.mpr ?_
  refine ⟨⟨0, authorizedExchange.endpoint, authorizedExchange.request⟩,
    ⟨8, followedExchange.endpoint, followedExchange.request⟩, ?_, ?_, ?_⟩
  · decide +kernel
  · decide +kernel
  · decide +kernel

end IcuTransport.Client
