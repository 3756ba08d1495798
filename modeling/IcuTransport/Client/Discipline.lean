import IcuTransport.Client.Budget
import IcuTransport.Client.Traced

/-!
# The discipline of a run

The monitors of the handles and of the output follow a whole run. The handles that one exchange
acquires move from `open_connection` to `one_request` and to the loop, and wherever the turn ends
they have been released (`custody_turnTraced`). A turn that goes on has put nothing out, so the
monitors are back where they were, and the run shows them only its last turn
(`custody_sendRequestTraced`).

Every connection of a run is therefore closed exactly once, before the next one is opened and before
the run returns (`connections_orderly`).
-/

set_option autoImplicit false

namespace IcuTransport.Client

open Ascii TextScan TurnLoop Tracing Wire Redirect Capture Connect

/-! ## One exchange -/

theorem way_subset_handles (record : ConnectionRecord) : record.way ⊆ record.handles := by
  intro handle member
  simp only [ConnectionRecord.way, ConnectionRecord.handles, List.mem_append] at member ⊢
  tauto

theorem custody_closing {α : Type} {output : Output} (record : ConnectionRecord) (value : α) :
    Guarded account (record.handles, output) (closing record value) fun _ => ([], output) :=
  Guarded.bind (custody_closeConnection record) (Guarded.pure rfl)

/-- The handles that are held after an exchange. -/
def heldBy : Except ℕ (Response × ConnectionRecord) → List Handle
  | .error _ => []
  | .ok (_, record) => record.handles

/-- **An exchange that fails has released its handles**; one that succeeds holds the handles of its
connection. -/
theorem custody_oneRequestTraced (world : NativeWorld) (hop : ℕ) (exchange : Exchange) :
    Guarded account ([], .nothing) (oneRequestTraced world hop exchange) fun received =>
      (heldBy received, .nothing) := by
  have failed : Failed (world.opened hop exchange).value := openConnection_unopened _ _ _ _ _
  unfold oneRequestTraced
  refine Guarded.bind (custody_openConnection _ _ _ _ _) ?_
  generalize (world.opened hop exchange).value = connected at failed
  obtain ⟨opened, record⟩ := connected
  dsimp only
  split
  · rename_i unopened
    refine Guarded.pure ?_
    rw [(failed unopened).1]
    rfl
  · have within := way_subset_handles record
    refine Guarded.bind (custody_writeRequest within _ _ _ _) ?_
    split
    · exact custody_closing record _
    · refine Guarded.bind (custody_readResponseHeadTraced within _) ?_
      split
      · exact custody_closing record _
      · exact Guarded.pure rfl

/-! ## Delivering -/

section Deliveries

variable {held : List Handle} {files : List CaptureFile} {written : Bytes}

theorem account_created {file : CaptureFile} :
    account (held, ⟨files, written⟩) (.created file) = some (held, ⟨files ++ [file], written⟩) :=
      rfl

theorem custody_privateOutput (file : CaptureFile) (outcome : PrivateFile) :
    Guarded account (held, ⟨files, written⟩) (privateOutput file outcome) fun _ =>
      (held, ⟨files ++ outcome.created file, written⟩) := by
  cases outcome with
  | refused => exact Guarded.pure (by rw [PrivateFile.created, List.append_nil])
  | unbuffered => exact Guarded.emit_bind account_created (Guarded.pure rfl)
  | opened => exact Guarded.emit_bind account_created (Guarded.pure rfl)

/-- The files that are created for the metadata. -/
def metadataFiles (world : NativeWorld) : Option Bytes → List CaptureFile
  | none => []
  | some _ => world.metadataFile.created .metadata

theorem custody_writeResponseMetadataTraced (world : NativeWorld) (path : Option Bytes)
    (head : ResponseHead) (receivedLength : ℕ) (bodyFile : Option Bytes) :
    Guarded account (held, ⟨files, written⟩)
      (writeResponseMetadataTraced world path head receivedLength bodyFile) fun _ =>
      (held, ⟨files ++ metadataFiles world path, written⟩) := by
  cases path with
  | none => exact Guarded.pure (by rw [metadataFiles, List.append_nil])
  | some path =>
      unfold writeResponseMetadataTraced
      refine Guarded.bind (custody_privateOutput .metadata world.metadataFile) ?_
      split
      · exact Guarded.pure rfl
      · exact Guarded.pure rfl

end Deliveries

/-- What is put out when a response goes to the standard output. -/
def stdoutOutput (world : NativeWorld) (call : Call) (response : Response) : Output :=
  ⟨metadataFiles world call.metadataOutputPath,
    (copyRemainingBody false world.stdout response.connection 13 response.bodyPrefix).written⟩

/-- What is put out when a response is captured. -/
def filesOutput (world : NativeWorld) (call : Call) (response : Response) : Output :=
  if response.head.invalidFraming then .nothing
  else if ∃ length ∈ response.head.contentLength, length > maxCaptureBytes then .nothing
  else if world.bodyFile.opens = false then ⟨world.bodyFile.created .body, []⟩
  else
    ⟨world.bodyFile.created .body ++ metadataFiles world call.metadataOutputPath,
      (copyRemainingBody true world.body response.connection 13 response.bodyPrefix).written⟩

/-- What is put out when a response is delivered. -/
def deliverOutput (world : NativeWorld) (call : Call) (response : Response) : Output :=
  match call.bodyOutputPath with
  | none => stdoutOutput world call response
  | some _ => filesOutput world call response

section Delivering

variable (world : NativeWorld) (call : Call) (response : Response) (record : ConnectionRecord)

theorem custody_deliverToStdoutTraced :
    Guarded account (record.handles, .nothing) (deliverToStdoutTraced world call response record)
      fun _ => ([], stdoutOutput world call response) := by
  have within := way_subset_handles record
  unfold deliverToStdoutTraced
  refine Guarded.bind (custody_copyRemainingBodyTraced within _ _ _ _ _) ?_
  refine Guarded.bind (custody_writeResponseMetadataTraced _ _ _ _ _) ?_
  rw [value_copyRemainingBodyTraced]
  exact custody_closing record _

theorem custody_deliverToFilesTraced :
    Guarded account (record.handles, .nothing) (deliverToFilesTraced world call response record)
      fun _ => ([], filesOutput world call response) := by
  have within := way_subset_handles record
  unfold deliverToFilesTraced filesOutput
  split
  · exact custody_closing record _
  · split
    · exact custody_closing record _
    · refine Guarded.bind (custody_privateOutput .body world.bodyFile) ?_
      rw [value_privateOutput]
      split
      · exact custody_closing record _
      · refine Guarded.bind (custody_copyRemainingBodyTraced within _ _ _ _ _) ?_
        refine Guarded.bind (custody_writeResponseMetadataTraced _ _ _ _ _) ?_
        rw [value_copyRemainingBodyTraced]
        exact custody_closing record _

/-- **A delivery releases the connection**, whatever goes wrong with the output. -/
theorem custody_deliverTraced :
    Guarded account (record.handles, .nothing) (deliverTraced world call response record)
      fun _ => ([], deliverOutput world call response) := by
  unfold deliverTraced deliverOutput
  cases call.bodyOutputPath with
  | none => exact custody_deliverToStdoutTraced world call response record
  | some path => exact custody_deliverToFilesTraced world call response record

end Delivering

/-! ## The loop -/

/-- What is put out in a turn. -/
def turnOutput (world : NativeWorld) (call : Call) (state : LoopState) : Output :=
  match oneRequest (world.answer state.redirects (state.exchange call)) with
  | .error _ => .nothing
  | .ok response =>
      if canFollow state.request response.head = false then deliverOutput world call response
      else .nothing

/-- **A turn releases what it acquires**, wherever it ends. -/
theorem custody_turnTraced (world : NativeWorld) (call : Call) (state : LoopState) :
    Guarded account ([], .nothing) (turnTraced world call state) fun _ =>
      ([], turnOutput world call state) := by
  have exchanged := value_oneRequestTraced world state.redirects (state.exchange call)
  unfold turnTraced turnOutput
  rw [← exchanged]
  refine Guarded.bind (custody_oneRequestTraced world _ _) ?_
  cases (oneRequestTraced world state.redirects (state.exchange call)).value with
  | error code => exact Guarded.pure rfl
  | ok received =>
      obtain ⟨response, record⟩ := received
      dsimp only [Except.map, heldBy]
      split
      · exact Guarded.bind (custody_deliverTraced world call response record) (Guarded.pure rfl)
      · split
        · exact custody_closing record _
        · split
          · exact custody_closing record _
          · exact custody_closing record _

/-- A redirect that is to be followed puts nothing out. -/
theorem turnOutput_of_followable {world : NativeWorld} {call : Call} {state : LoopState}
    {head : ResponseHead} (followed : followable world.toWorld call state = some head) :
    turnOutput world call state = .nothing := by
  unfold followable at followed
  unfold turnOutput
  rw [toWorld_server] at followed
  cases received : oneRequest (world.answer state.redirects (state.exchange call)) with
  | error code => rfl
  | ok response =>
      simp only [received] at followed
      split at followed
      · rename_i follows
        simp only [follows, Bool.true_eq_false, if_false]
      · cases followed

/-- A turn that goes on puts nothing out. -/
theorem turnOutput_of_next {world : NativeWorld} {call : Call} {state later : LoopState}
    (went : (turnTraced world call state).value = .next later) :
    turnOutput world call state = .nothing := by
  rw [value_turnTraced] at went
  obtain ⟨_, head, followed, _⟩ := turn_eq_next_iff.mp went
  exact turnOutput_of_followable followed

/-- **A run as the monitors see it**: a call that is refused does nothing, and of the turns of the
loop only the last one is seen. -/
theorem custody_sendRequestTraced {fuel : ℕ} {world : NativeWorld} {call : Call}
    {ran : Traced Event Outcome} (returned : sendRequestTraced fuel world call = some ran) :
    (ran.events = [] ∧ (ran.value.result = 2 ∨ ran.value.result = 3)) ∨
    ∃ last, turn world.toWorld call last = .finished (ran.value.result, ran.value.delivery) ∧
      ran.value.exchanges[ran.value.exchanges.length - 1]? = some (last.exchange call) ∧
      last.redirects + 1 = ran.value.exchanges.length ∧
      watch account ([], .nothing) ran.events = some ([], turnOutput world call last) := by
  unfold sendRequestTraced at returned
  cases began : start world.toWorld call with
  | error code =>
      simp only [began, Option.some.injEq] at returned
      subst returned
      exact Or.inl ⟨rfl, start_error began⟩
  | ok state =>
      simp only [began, Option.map_eq_some_iff] at returned
      obtain ⟨visited, looped, rfl⟩ := returned
      have goesOn : ∀ state later, (turnTraced world call state).value = .next later →
          watch account ([], .nothing) (turnTraced world call state).events =
            some ([], .nothing) := by
        intro state later went
        have guarded : watch account ([], .nothing) (turnTraced world call state).events =
          some ([], turnOutput world call state) := custody_turnTraced world call state
        rw [guarded, turnOutput_of_next went]
      obtain ⟨last, finished, atEnd, seen⟩ := watch_runTraced goesOn looped
      right
      refine ⟨last, (value_turnTraced world call last).symm.trans finished, ?_, ?_, ?_⟩
      · rw [List.length_map, List.getElem?_map, atEnd]
        rfl
      · rw [runTraced_eq, turnTraced_value, Option.map_eq_some_iff] at looped
        obtain ⟨⟨visits, result⟩, plain, rfl⟩ := looped
        have counted := visits_redirects plain (started_of_start began).redirects atEnd
        have bound := (List.getElem?_eq_some_iff.mp atEnd).1
        rw [List.length_map, counted]
        omega
      · rw [seen]
        exact custody_turnTraced world call last

/-- **The program returns**: nine turns are enough, and more give the same outcome and events. -/
theorem sendRequestTraced_returns (world : NativeWorld) (call : Call) :
    ∃ ran, ∀ fuel, 9 ≤ fuel → sendRequestTraced fuel world call = some ran := by
  unfold sendRequestTraced
  cases began : start world.toWorld call with
  | error code => exact ⟨_, fun _ _ => rfl⟩
  | ok state =>
      have fresh := (started_of_start began).redirects
      obtain ⟨outcome, looped⟩ : ∃ outcome,
          run (turn world.toWorld call) (maxRedirects + 1) state = some outcome :=
        run_returns fresh le_rfl
      refine ⟨⟨⟨outcome.1.map (LoopState.exchange call), outcome.2.1, outcome.2.2⟩,
        outcome.1.flatMap fun visit => (turnTraced world call visit).events⟩, fun fuel enough => ?_⟩
      simp only [runTraced_eq, turnTraced_value, run_mono looped enough, Option.map_some]

/-- **Every connection is closed exactly once.** Whatever the outcome of each call, the run returns,
and in its trace every handle is released after its acquisition, once, before the next connection is
opened and before the end; never are two sockets, two contexts or two TLS handles held; and bytes
are sent and received only by way of handles that are held. -/
theorem connections_orderly (world : NativeWorld) (call : Call) :
    ∃ ran, (∀ fuel, 9 ≤ fuel → sendRequestTraced fuel world call = some ran) ∧
      Custody.Orderly Handle.kind (ran.events.map Event.action) ∧
      ∀ before way bytes after,
        ran.events = before ++ .sent way bytes :: after ∨
          ran.events = before ++ .received way bytes :: after →
        ∀ handle ∈ way, handle ∈ Custody.heldAfter (before.map Event.action) := by
  obtain ⟨ran, returns⟩ := sendRequestTraced_returns world call
  have accepted : watch custody [] ran.events = some [] := by
    rcases custody_sendRequestTraced (returns 9 le_rfl) with ⟨nothing, _⟩ | ⟨last, _, _, _, seen⟩
    · rw [nothing, watch_nil]
    · exact (watch_both.mp seen).1
  rw [watch_custody] at accepted
  have orderly := Custody.orderly_of_watch accepted
  refine ⟨ran, returns, orderly, ?_⟩
  intro before way bytes after split
  refine orderly.touched (before.map Event.action) way (after.map Event.action) ?_
  rcases split with sent | received
  · rw [sent, List.map_append, List.map_cons]
    rfl
  · rw [received, List.map_append, List.map_cons]
    rfl

end IcuTransport.Client
