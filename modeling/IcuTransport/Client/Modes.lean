import IcuTransport.Client.Capturing

/-!
# The two modes of the client

A run writes the last response to the standard output or captures it in files. The two modes are
one client: the loop goes on alike, so the same exchanges are made (`turn_modes`), and a response
that is captured completely is also printed completely. A run that prints knows no result above 8.
-/

set_option autoImplicit false

namespace IcuTransport.Client

open Ascii TextScan TurnLoop Wire Redirect Capture

/-- The call, with the response printed. -/
def Call.printing (call : Call) : Call :=
  { call with bodyOutputPath := none, metadataOutputPath := none }

/-- The call, with the response captured, and its metadata if a path is given for them. -/
def Call.capturing (call : Call) (bodyPath : Bytes) (metadataPath : Option Bytes) : Call :=
  { call with bodyOutputPath := some bodyPath, metadataOutputPath := metadataPath }

section Modes

variable {world : World} {call : Call} {bodyPath : Bytes} {metadataPath : Option Bytes}

/-- **Both modes go on alike.** -/
theorem turn_modes (state later : LoopState) :
    turn world call.printing state = .next later ↔
      turn world (call.capturing bodyPath metadataPath) state = .next later := by
  rw [turn_eq_next_iff, turn_eq_next_iff]
  rfl

/-- **Both modes make the same exchanges**, and end on the same state if they make any. -/
theorem exchanges_modes {fuel : ℕ} {printed captured : Outcome}
    (printedRun : sendRequest fuel world call.printing = some printed)
    (capturedRun : sendRequest fuel world (call.capturing bodyPath metadataPath) = some captured) :
    printed.exchanges = captured.exchanges ∧
      ((captured.result = 2 ∨ captured.result = 3) ∨
        ∃ visit, turn world call.printing visit = .finished (printed.result, printed.delivery) ∧
          turn world (call.capturing bodyPath metadataPath) visit =
            .finished (captured.result, captured.delivery)) := by
  rcases sendRequest_eq_some printedRun with
    ⟨code, refused, _, rfl⟩ | ⟨state, visits, began, _, finished, all⟩
  · rcases sendRequest_eq_some capturedRun with ⟨_, _, invalid, rfl⟩ | ⟨_, _, began, _⟩
    · exact ⟨rfl, Or.inl invalid⟩
    · cases refused.symm.trans began
  · rcases sendRequest_eq_some capturedRun with
      ⟨_, refused, _, _⟩ | ⟨state', visits', began', _, finished', all'⟩
    · cases refused.symm.trans began
    · cases began.symm.trans began'
      obtain ⟨result, same⟩ := run_agree turn_modes finished
      obtain ⟨rfl, _⟩ := Prod.mk.inj (Option.some.inj (same.symm.trans finished'))
      obtain ⟨visit, last, ended⟩ := turn_of_last finished
      obtain ⟨visit', last', ended'⟩ := turn_of_last finished'
      obtain rfl := Option.some.inj (last.symm.trans last')
      refine ⟨?_, Or.inr ⟨visit, ended, ended'⟩⟩
      rw [all, all']
      rfl

end Modes

/-! ## Printing -/

theorem deliverToStdout_result {world : World} {call : Call} {response : Response} :
    (deliverToStdout world call response).1 = 0 ∨ (deliverToStdout world call response).1 = 7 := by
  unfold deliverToStdout deliveryResult
  dsimp only
  split
  · right
    rw [if_neg (by simp)]
  · left
    rw [if_neg (by simp), if_neg (by simp)]

theorem exchangeFailure_printing {useTls : Bool} {code : ℕ}
    (codes : code ∈ [4, 5, 6, 7, 11, 13, 14]) : exchangeFailure false useTls code ≤ 8 := by
  unfold exchangeFailure
  simp only [List.mem_cons, List.not_mem_nil, or_false] at codes
  split
  · decide
  · split
    · decide
    · rename_i small
      have bound : ¬ code ≥ 11 := fun large => small ⟨rfl, large⟩
      omega

/-- **A run that prints gives no result above 8.** -/
theorem result_printing {fuel : ℕ} {world : World} {call : Call} {outcome : Outcome}
    (prints : call.bodyOutputPath = none) (ran : sendRequest fuel world call = some outcome) :
    outcome.result ≤ 8 := by
  rcases sendRequest_eq_some ran with ⟨code, _, invalid, rfl⟩ | ⟨_, _, _, _, finished, _⟩
  · dsimp only
    omega
  · obtain ⟨_, _, ended⟩ := turn_of_last finished
    rcases turn_eq_finished ended with
      ⟨code, failed, same, _⟩ | ⟨response, _, _, delivered⟩ | ⟨_, _, gaveUp, _⟩
    · rw [same, prints]
      exact exchangeFailure_printing (oneRequest_error failed)
    · rw [deliver, prints] at delivered
      have result : outcome.result = (deliverToStdout world call response).1 :=
        congrArg Prod.fst delivered
      have codes : (deliverToStdout world call response).1 = 0 ∨
        (deliverToStdout world call response).1 = 7 := deliverToStdout_result
      omega
    · omega

/-- A response that ends properly is printed to a reliable output. -/
theorem deliverToStdout_reliable {world : World} {call : Call} {response : Response}
    (reliable : world.stdout.Reliable) (noMetadata : call.metadataOutputPath = none)
    (closed : response.connection.ending = .closed) :
    deliverToStdout world call response =
      (0, ⟨response.bodyPrefix ++ delivered response.connection.chunks, none, none⟩) := by
  have connection : response.connection = ⟨response.connection.chunks, .closed⟩ := by
    rw [← closed]
  have copied : (copyRemainingBody false world.stdout response.connection 13
      response.bodyPrefix).copied = true := by
    rw [connection]
    refine copyRemainingBody_complete reliable fun file => ?_
    cases file
  obtain ⟨_, _, copy, _⟩ := copyRemainingBody_of_copied copied
  simp [deliverToStdout, copy, noMetadata, writeResponseMetadata, deliveryResult]

/-- **What is captured completely is printed completely**, on the same state. -/
theorem printed_of_captured {world : World} {call : Call} {bodyPath : Bytes}
    {metadataPath : Option Bytes} {visit : LoopState} {result result' : ℕ}
    {delivery delivery' : Delivery}
    (reliable : world.stdout.Reliable)
    (printed : turn world call.printing visit = .finished (result, delivery))
    (captured : turn world (call.capturing bodyPath metadataPath) visit =
      .finished (result', delivery'))
    (complete : result' ∈ [0, 9, 10]) :
    result = 0 ∧ delivery'.bodyFile = some delivery.stdout := by
  obtain ⟨response, received, stays, _, left, code⟩ :=
    delivered_of_bodyFile rfl captured (bodyFile_of_complete rfl captured complete)
  rw [code] at complete
  have kept := (deliveryResult_complete complete).1
  obtain ⟨closed, _, copy, _⟩ := copyRemainingBody_of_copied (Bool.and_eq_true_iff.mp kept).1
  have copy : captureCopy world response = ⟨true, 13, _, _⟩ := copy
  have delivered : (result, delivery) = deliverToStdout world call.printing response := by
    rcases turn_eq_finished printed with
      ⟨_, failed, _⟩ | ⟨response', received', _, delivered⟩ | ⟨head, followed, _⟩
    · cases received.symm.trans failed
    · cases received.symm.trans received'
      exact delivered
    · have noRedirect : followable world call.printing visit = none := by
        have received : oneRequest (world.server visit.redirects (visit.exchange call.printing)) =
            .ok response := received
        simp only [followable, received, stays, Bool.false_eq_true, if_false]
      cases noRedirect.symm.trans followed
  rw [deliverToStdout_reliable reliable rfl closed] at delivered
  obtain ⟨rfl, rfl⟩ := Prod.mk.inj delivered
  exact ⟨rfl, by rw [left, copy]⟩

/-- **Printing and capturing are the same client.** Both runs return, and make the same exchanges.
Where the capture is complete, the other run succeeds and prints exactly the bytes of the body file.
A run that prints never gives a result above 8. -/
theorem modes_agree :
    (∀ world call bodyPath metadataPath, ∃ printed captured,
      (∀ fuel, 9 ≤ fuel →
        sendRequest fuel world (Call.printing call) = some printed ∧
          sendRequest fuel world (Call.capturing call bodyPath metadataPath) = some captured) ∧
      printed.exchanges = captured.exchanges ∧
      (world.stdout.Reliable → captured.result = 0 ∨ captured.result = 9 ∨ captured.result = 10 →
        printed.result = 0 ∧ captured.delivery.bodyFile = some printed.delivery.stdout)) ∧
    ∀ fuel world call outcome, Call.bodyOutputPath call = none →
      sendRequest fuel world call = some outcome → outcome.result ≤ 8 := by
  refine ⟨?_, fun fuel world call outcome prints ran => result_printing prints ran⟩
  intro world call bodyPath metadataPath
  obtain ⟨printed, prints⟩ := sendRequest_returns world call.printing
  obtain ⟨captured, captures⟩ := sendRequest_returns world (call.capturing bodyPath metadataPath)
  obtain ⟨same, ends⟩ := exchanges_modes (prints 9 le_rfl) (captures 9 le_rfl)
  refine ⟨printed, captured, fun fuel enough => ⟨prints fuel enough, captures fuel enough⟩, same,
    fun reliable complete => ?_⟩
  rcases ends with invalid | ⟨visit, ended, ended'⟩
  · omega
  · have complete : captured.result ∈ [0, 9, 10] := by
      simpa only [List.mem_cons, List.not_mem_nil, or_false] using complete
    exact printed_of_captured reliable ended ended' complete

theorem modes_agree_once_redirected :
    ∃ printed, sendRequest 9 redirectingOnce authorizedCall.printing = some printed ∧
      printed.exchanges = capturedOutcome.exchanges ∧ printed.result = 0 ∧
      capturedOutcome.delivery.bodyFile = some printed.delivery.stdout := by
  have reliable : redirectingOnce.stdout.Reliable := ⟨fun _ => rfl, rfl⟩
  obtain ⟨printed, captured, returns, same, complete⟩ :=
    modes_agree.1 redirectingOnce authorizedCall (ascii "b") (some (ascii "m"))
  obtain ⟨prints, captures⟩ := returns 9 le_rfl
  obtain rfl := Option.some.inj (captures.symm.trans sendRequest_capturedCall)
  exact ⟨printed, prints, same, complete reliable (Or.inl rfl)⟩

end IcuTransport.Client
