import IcuTransport.Client.Discipline
import IcuTransport.Client.Modes

/-!
# What a run puts out

The trace of a run shows which bytes were written and which files were created, and when. The
monitor of the output refuses a connection that is opened after something was put out, so the
response that is delivered is the last one, and no part of a response that was followed is in the
output (`output_of_last_response`). The metadata file comes after the body file.
-/

set_option autoImplicit false

namespace IcuTransport.Client

open Ascii TextScan TurnLoop Tracing Wire Redirect Capture Connect

/-! ## The output in a trace -/

/-- The file an event creates. -/
def createdFile : Event → Option CaptureFile
  | .created file => some file
  | _ => none

/-- The bytes an event writes. -/
def writtenBytes : Event → Bytes
  | .wrote bytes => bytes
  | _ => []

/-- The files that are created in a trace, in order. -/
def filesOf (events : List Event) : List CaptureFile := events.filterMap createdFile

/-- The bytes that are written in a trace. -/
def bytesOf (events : List Event) : Bytes := events.flatMap writtenBytes

theorem publish_opening {output later : Output} {host : Bytes} {port : Int32} {useTls : Bool}
    (accepted : publish output (.opening host port useTls) = some later) :
    output = .nothing ∧ later = output := by
  by_cases nothing : output = .nothing
  · have same : some output = some later := (if_pos nothing).symm.trans accepted
    exact ⟨nothing, (Option.some.inj same).symm⟩
  · have refused : none = some later := (if_neg nothing).symm.trans accepted
    cases refused

theorem publish_eq_some {output later : Output} {event : Event}
    (accepted : publish output event = some later) :
    later = ⟨output.files ++ (createdFile event).toList, output.written ++ writtenBytes event⟩ := by
  cases event with
  | opening host port useTls =>
      rw [(publish_opening accepted).2]
      simp [createdFile, writtenBytes]
  | _ =>
      -- every other event is accepted, with its own contribution
      cases accepted
      simp [createdFile, writtenBytes]

/-- **The monitor of the output keeps what the trace puts out.** -/
theorem watch_publish {output later : Output} {events : List Event}
    (accepted : watch publish output events = some later) :
    later = ⟨output.files ++ filesOf events, output.written ++ bytesOf events⟩ := by
  induction events generalizing output with
  | nil =>
      obtain rfl := Option.some.inj accepted
      simp [filesOf, bytesOf]
  | cons event rest ih =>
      obtain ⟨next, stepped, accepted⟩ := Option.bind_eq_some_iff.mp accepted
      have here := publish_eq_some stepped
      have later := ih accepted
      rw [later, here]
      cases created : createdFile event with
      | none => simp [filesOf, bytesOf, created]
      | some file => simp [filesOf, bytesOf, created]

theorem watch_publish_nothing {later : Output} {events : List Event}
    (accepted : watch publish .nothing events = some later) :
    filesOf events = later.files ∧ bytesOf events = later.written := by
  rw [watch_publish accepted]
  exact ⟨rfl, rfl⟩

/-- Nothing is put out before a connection is opened. -/
theorem nothing_before_opening {later : Output} {before after : List Event} {host : Bytes}
    {port : Int32} {useTls : Bool}
    (accepted :
      watch publish .nothing (before ++ .opening host port useTls :: after) = some later) :
    bytesOf before = [] ∧ filesOf before = [] := by
  obtain ⟨middle, first, rest⟩ := watch_split accepted
  obtain ⟨next, stepped, _⟩ := Option.bind_eq_some_iff.mp rest
  obtain ⟨rfl, _⟩ := publish_opening stepped
  obtain ⟨files, bytes⟩ := watch_publish_nothing first
  exact ⟨bytes, files⟩

/-! ## The output of the last turn -/

section Turns

variable {world : NativeWorld} {call : Call} {state : LoopState}

/-- What is written is a prefix of the body of the response. -/
theorem deliverOutput_prefix (response : Response) :
    (deliverOutput world call response).written <+:
      response.bodyPrefix ++ delivered response.connection.chunks := by
  unfold deliverOutput
  split
  · exact copyRemainingBody_written_prefix _ _ _ _ _
  · unfold filesOutput
    split
    · exact List.nil_prefix
    · split
      · exact List.nil_prefix
      · split
        · exact List.nil_prefix
        · exact copyRemainingBody_written_prefix _ _ _ _ _

/-- **What a turn writes comes from the body of its response.** -/
theorem turnOutput_written (world : NativeWorld) (call : Call) (state : LoopState) :
    (turnOutput world call state).written = [] ∨
      ∃ head body,
        world.answer state.redirects (state.exchange call) =
          .answered (world.calls state.redirects (state.exchange call)).reads ∧
        delivered (world.calls state.redirects (state.exchange call)).reads.chunks = head ++ body ∧
        IsHead head ∧ (turnOutput world call state).written <+: body := by
  unfold turnOutput
  cases received : oneRequest (world.answer state.redirects (state.exchange call)) with
  | error code => exact Or.inl rfl
  | ok response =>
      dsimp only
      split
      · right
        obtain ⟨connection, answered, accepted, _⟩ := oneRequest_ok received
        obtain ⟨head, isHead, split, _⟩ := readResponseHead_split accepted
        have reads : connection = (world.calls state.redirects (state.exchange call)).reads := by
          unfold NativeWorld.answer at answered
          split at answered
          · cases answered
          · split at answered
            · cases answered
            · exact (Answer.answered.inj answered).symm
        rw [reads] at answered split
        exact ⟨head, _, answered, split, isHead, deliverOutput_prefix response⟩
      · exact Or.inl rfl

/-- **A turn that gives a result of the first kind puts nothing out.** -/
theorem turnOutput_of_result {result : ℕ} {delivery : Delivery}
    (finished : turn world.toWorld call state = .finished (result, delivery))
    (early : result ∈ [2, 3, 4, 5, 6, 8, 14]) : turnOutput world call state = .nothing := by
  rcases turn_eq_finished finished with
    ⟨code, failed, _⟩ | ⟨response, received, _, delivered⟩ | ⟨head, followed, _⟩
  · rw [toWorld_server] at failed
    simp only [turnOutput, failed]
  · have late : (deliver world.toWorld call response).1 ∈ [0, 7, 9, 10, 11, 12, 13] := deliver_mem
    rw [← delivered] at late
    simp only [List.mem_cons, List.not_mem_nil, or_false] at early late
    omega
  · exact turnOutput_of_followable followed

/-- Nothing but the body file and then the metadata file. -/
def InOrder (files : List CaptureFile) : Prop :=
  files = [] ∨ files = [.body] ∨ files = [.body, .metadata]

theorem inOrder_created (file : PrivateFile) : InOrder (file.created .body) := by
  cases file with
  | refused => exact Or.inl rfl
  | unbuffered => exact Or.inr (Or.inl rfl)
  | opened => exact Or.inr (Or.inl rfl)

theorem inOrder_metadata (world : NativeWorld) (path : Option Bytes) :
    InOrder ([.body] ++ metadataFiles world path) := by
  cases path with
  | none => exact Or.inr (Or.inl rfl)
  | some path =>
      unfold metadataFiles
      cases world.metadataFile with
      | refused => exact Or.inr (Or.inl rfl)
      | unbuffered => exact Or.inr (Or.inr rfl)
      | opened => exact Or.inr (Or.inr rfl)

theorem inOrder_filesOutput (response : Response) :
    InOrder (filesOutput world call response).files := by
  unfold filesOutput
  split
  · exact Or.inl rfl
  · split
    · exact Or.inl rfl
    · split
      · exact inOrder_created world.bodyFile
      · rename_i opens
        have opened : world.bodyFile = .opened := by
          cases outcome : world.bodyFile with
          | refused => exact absurd (by rw [outcome]; rfl) opens
          | unbuffered => exact absurd (by rw [outcome]; rfl) opens
          | opened => rfl
        rw [opened]
        exact inOrder_metadata world call.metadataOutputPath

/-- **A turn creates the body file before the metadata file**, in either mode. -/
theorem inOrder_turnOutput (mode : call.bodyOutputPath = none → call.metadataOutputPath = none) :
    InOrder (turnOutput world call state).files := by
  unfold turnOutput
  split
  · exact Or.inl rfl
  · split
    · unfold deliverOutput
      cases path : call.bodyOutputPath with
      | none =>
          left
          dsimp only [stdoutOutput]
          rw [mode path]
          rfl
      | some bodyPath => exact inOrder_filesOutput _
    · exact Or.inl rfl

end Turns

/-! ## The output of a run -/

/-- **Output comes only from the last response.** -/
structure LastResponseOnly (world : NativeWorld) (ran : Traced Event Outcome) : Prop where
  /-- Nothing was put out before a connection was opened, so nothing while a redirect was
  followed. -/
  opened : ∀ before host port useTls after,
    ran.events = before ++ .opening host port useTls :: after →
      bytesOf before = [] ∧ filesOf before = []
  /-- What was written is a prefix of the body of the response to the last exchange. -/
  written : bytesOf ran.events = [] ∨
    ∃ hop exchange head body, ran.value.exchanges.length = hop + 1 ∧
      ran.value.exchanges[hop]? = some exchange ∧
      world.answer hop exchange = .answered (world.calls hop exchange).reads ∧
      delivered (world.calls hop exchange).reads.chunks = head ++ body ∧ IsHead head ∧
      bytesOf ran.events <+: body
  /-- A run that ends without a response to deliver puts nothing out. -/
  nothing : ran.value.result ∈ [2, 3, 4, 5, 6, 8, 14] →
    bytesOf ran.events = [] ∧ filesOf ran.events = []
  /-- The metadata file is created after the body file. -/
  ordered : ∀ before after, ran.events = before ++ .created .metadata :: after →
    .created .body ∈ before

theorem body_before_metadata {before after : List Event}
    (inOrder : InOrder (filesOf (before ++ .created .metadata :: after))) :
    .created .body ∈ before := by
  have files : filesOf (before ++ .created .metadata :: after) =
      filesOf before ++ .metadata :: filesOf after := by
    simp [filesOf, createdFile]
  rw [files] at inOrder
  have first : CaptureFile.body ∈ filesOf before := by
    rcases inOrder with none | one | two
    · simp at none
    · simp [List.append_eq_cons_iff] at one
    · rcases List.append_eq_cons_iff.mp two with ⟨_, same⟩ | ⟨rest, same, _⟩
      · cases same
      · rw [same]
        exact List.mem_cons_self
  obtain ⟨event, member, creates⟩ := List.mem_filterMap.mp first
  cases event with
  | created file =>
      obtain rfl := Option.some.inj creates
      exact member
  | _ => cases creates

theorem lastResponseOnly {fuel : ℕ} {world : NativeWorld} {call : Call}
    {ran : Traced Event Outcome}
    (mode : call.bodyOutputPath = none → call.metadataOutputPath = none)
    (returned : sendRequestTraced fuel world call = some ran) : LastResponseOnly world ran := by
  rcases custody_sendRequestTraced returned with
    ⟨silent, _⟩ | ⟨last, finished, sent, count, seen⟩
  · refine ⟨?_, Or.inl ?_, ?_, ?_⟩
    · intro before host port useTls after split
      rw [silent] at split
      simp at split
    · rw [silent]
      rfl
    · intro _
      rw [silent]
      exact ⟨rfl, rfl⟩
    · intro before after split
      rw [silent] at split
      simp at split
  · have accepted : watch publish .nothing ran.events = some (turnOutput world call last) :=
      (watch_both.mp seen).2
    obtain ⟨files, bytes⟩ := watch_publish_nothing accepted
    refine ⟨?_, ?_, ?_, ?_⟩
    · intro before host port useTls after split
      rw [split] at accepted
      exact nothing_before_opening accepted
    · rw [bytes]
      rcases turnOutput_written world call last with nothing | ⟨head, body, answered, found⟩
      · exact Or.inl nothing
      · right
        rw [← count, Nat.add_sub_cancel] at sent
        exact ⟨last.redirects, last.exchange call, head, body, count.symm, sent, answered, found⟩
    · intro early
      rw [files, bytes, turnOutput_of_result finished early]
      exact ⟨rfl, rfl⟩
    · intro before after split
      have inOrder : InOrder (filesOf ran.events) := by
        rw [files]
        exact inOrder_turnOutput mode
      rw [split] at inOrder
      exact body_before_metadata inOrder

/-- **Output comes only from the last response**, in either mode and whatever happens. The run
returns; nothing is put out before its last connection is opened; what is written is a prefix of the
body of the last response; a run that ends with one of the results 2, 3, 4, 5, 6, 8 and 14 has put
nothing out; and the metadata file is created after the body file. -/
theorem output_of_last_response (world : NativeWorld) (call : Call) :
    (∃ ran, (∀ fuel, 9 ≤ fuel → sendRequestTraced fuel world call.printing = some ran) ∧
      LastResponseOnly world ran) ∧
    ∀ bodyPath metadataPath,
      ∃ ran, (∀ fuel, 9 ≤ fuel →
        sendRequestTraced fuel world (call.capturing bodyPath metadataPath) = some ran) ∧
        LastResponseOnly world ran := by
  constructor
  · obtain ⟨ran, returns⟩ := sendRequestTraced_returns world call.printing
    refine ⟨ran, returns, lastResponseOnly ?_ (returns 9 le_rfl)⟩
    intro _
    rfl
  · intro bodyPath metadataPath
    obtain ⟨ran, returns⟩ := sendRequestTraced_returns world (call.capturing bodyPath metadataPath)
    refine ⟨ran, returns, lastResponseOnly ?_ (returns 9 le_rfl)⟩
    intro printing
    cases printing

end IcuTransport.Client
