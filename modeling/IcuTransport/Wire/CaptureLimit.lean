import IcuTransport.Library.Loop
import IcuTransport.Wire.Faults

/-!
# The limit on a captured body

`copy_remaining_body` tests the limit before each write, by an unsigned subtraction of what it
has received. Here its loop is taken turn by turn (`copyTurn`), so that the state before every
read can be spoken of, and `run_copyTurn` says that the turns compute the copy of `Wire.Reading`.

The state before a read keeps an invariant, `WithinCapture`: the received bytes are within the
limit and they are what has been written. The limit is then met by the total of the body alone,
however the body was cut into reads (`capture_limit_exact`).
-/

set_option autoImplicit false

namespace IcuTransport.Wire

open Ascii TurnLoop

/-! ## The loop, turn by turn -/

/-- Where `copy_remaining_body` stands before a read: the reads that are left, the number of
writes so far, the received length and what is in the output. -/
structure CopyState where
  rest : List Chunk
  writes : ℕ
  received : ℕ
  written : Bytes
  deriving DecidableEq, Repr

/-- One turn of the loop of `copy_remaining_body`. -/
def copyTurn (toFile : Bool) (stream : OutputStream) (ending : Ending) (failure : ℕ)
    (state : CopyState) : Turn CopyState Copy :=
  match state.rest with
  | [] =>
      match ending with
      | .closed => .finished ⟨stream.flushes, failure, state.received, state.written⟩
      | .failed timedOut =>
          .finished ⟨false, readFailureCode timedOut, state.received, state.written⟩
  | chunk :: rest =>
      if toFile ∧ chunk.bytes.length > captureRoom state.received then
        .finished ⟨false, 12, state.received, state.written⟩
      else
        match writeOutput (stream.writes state.writes) chunk.bytes with
        | (taken, true) =>
            .next ⟨rest, state.writes + 1, state.received + chunk.bytes.length,
              state.written ++ taken⟩
        | (taken, false) => .finished ⟨false, failure, state.received, state.written ++ taken⟩

/-- Where the loop starts when the prefix has been written. -/
def copyStart (chunks : List Chunk) (bodyPrefix : Bytes) : CopyState :=
  ⟨chunks, if bodyPrefix = [] then 0 else 1, bodyPrefix.length, bodyPrefix⟩

/-- **The turns compute the copy**: as many turns as there are reads, and one more. -/
theorem run_copyTurn (toFile : Bool) (stream : OutputStream) (ending : Ending) (failure : ℕ)
    (chunks : List Chunk) (writes received : ℕ) (written : Bytes) :
    ∃ visits, run (copyTurn toFile stream ending failure) (chunks.length + 1)
        ⟨chunks, writes, received, written⟩ =
      some (visits, copyLoop toFile stream ending failure chunks writes received written) := by
  induction chunks generalizing writes received written with
  | nil =>
      refine ⟨[⟨[], writes, received, written⟩], ?_⟩
      cases ending with
      | closed => rfl
      | failed timedOut => rfl
  | cons chunk rest ih =>
      by_cases large : toFile ∧ chunk.bytes.length > captureRoom received
      · have turned : copyTurn toFile stream ending failure
            ⟨chunk :: rest, writes, received, written⟩ = .finished ⟨false, 12, received, written⟩ :=
              if_pos large
        refine ⟨[⟨chunk :: rest, writes, received, written⟩], ?_⟩
        rw [run, turned, copyLoop, if_pos large]
      · have turned : copyTurn toFile stream ending failure
            ⟨chunk :: rest, writes, received, written⟩ = _ := if_neg large
        rw [run, turned, copyLoop, if_neg large]
        cases outcome : writeOutput (stream.writes writes) chunk.bytes with
        | mk taken complete =>
            cases complete with
            | false => exact ⟨_, rfl⟩
            | true =>
                obtain ⟨visits, continued⟩ := ih (writes + 1) (received + chunk.bytes.length)
                  (written ++ taken)
                refine ⟨⟨chunk :: rest, writes, received, written⟩ :: visits, ?_⟩
                simp only [List.length_cons, continued, Option.map_some]

/-! ## What holds before every read -/

/-- What a capture keeps before every read: the received bytes are within the limit, they have
all been written, and with the reads that are left they make up the body. -/
structure WithinCapture (body : Bytes) (state : CopyState) : Prop where
  bound : state.received ≤ maxCaptureBytes
  counted : state.received = state.written.length
  whole : body = state.written ++ delivered state.rest

namespace WithinCapture

variable {stream : OutputStream} {ending : Ending} {failure : ℕ}
variable {body : Bytes} {state later : CopyState}

/-- What has been written is the start of the body. -/
theorem written_eq (within : WithinCapture body state) :
    state.written = body.take state.received := by
  rw [within.whole, within.counted, List.take_left]

/-- **A turn that goes on keeps the invariant.** -/
theorem next (within : WithinCapture body state)
    (went : copyTurn true stream ending failure state = .next later) :
    WithinCapture body later := by
  obtain ⟨rest, writes, received, written⟩ := state
  obtain ⟨bound, counted, whole⟩ := within
  cases rest with
  | nil =>
      cases ending with
      | closed => cases went
      | failed timedOut => cases went
  | cons chunk rest =>
      simp only at bound counted whole
      simp only [copyTurn, captureRoom_eq bound, true_and] at went
      split at went
      · cases went
      · rename_i room
        cases outcome : writeOutput (stream.writes writes) chunk.bytes with
        | mk taken complete =>
            cases complete with
            | false => simp only [outcome] at went; cases went
            | true =>
                simp only [outcome, Turn.next.injEq] at went
                obtain rfl := writeOutput_true outcome
                subst went
                refine ⟨?_, ?_, ?_⟩
                · show received + chunk.bytes.length ≤ maxCaptureBytes
                  omega
                · show received + chunk.bytes.length = (written ++ chunk.bytes).length
                  rw [List.length_append, counted]
                · rw [whole, delivered_cons, List.append_assoc]

end WithinCapture

/-- The state after a prefix within the limit keeps the invariant. -/
theorem withinCapture_copyStart {chunks : List Chunk} {bodyPrefix : Bytes}
    (bound : bodyPrefix.length ≤ maxCaptureBytes) :
    WithinCapture (bodyPrefix ++ delivered chunks) (copyStart chunks bodyPrefix) :=
  ⟨bound, rfl, rfl⟩

/-! ## The limit -/

variable {stream : OutputStream} {failure : ℕ}

/-- The loop refuses at the limit exactly when what is left does not fit into the room. -/
theorem copyLoop_limit_iff (takes : ∀ index, stream.writes index = .complete)
    (other : failure ≠ 12) {chunks : List Chunk} {writes received : ℕ} {written : Bytes}
    (bound : received ≤ maxCaptureBytes) :
    ((copyLoop true stream .closed failure chunks writes received written).copied = false ∧
        (copyLoop true stream .closed failure chunks writes received written).failureCode = 12) ↔
      maxCaptureBytes < received + (delivered chunks).length := by
  induction chunks generalizing writes received written with
  | nil => simp [copyLoop, other, bound]
  | cons chunk rest ih =>
      rw [copyLoop, captureRoom_eq bound, delivered_cons, List.length_append]
      by_cases large : chunk.bytes.length > maxCaptureBytes - received
      · rw [if_pos ⟨rfl, large⟩]
        simp only [true_and, true_iff]
        omega
      · rw [if_neg (fun both => large both.2), takes writes]
        simp only [writeOutput]
        rw [ih (by omega), Nat.add_assoc]

/-- With writes that succeed, the copy is the loop from `copyStart`. -/
theorem copyRemainingBody_eq_copyLoop (takes : ∀ index, stream.writes index = .complete)
    (connection : Connection) {bodyPrefix : Bytes} (bound : bodyPrefix.length ≤ maxCaptureBytes) :
    copyRemainingBody true stream connection failure bodyPrefix =
      copyLoop true stream connection.ending failure connection.chunks
        (copyStart connection.chunks bodyPrefix).writes bodyPrefix.length bodyPrefix := by
  rw [copyRemainingBody, if_neg (by simpa using bound), copyStart]
  split
  · rename_i empty
    rw [empty]
    rfl
  · rw [takes 0]
    rfl

/-- **The capture limit is exact, however the body is cut into reads.** With writes that succeed
and reads that end with the end of the stream, a capture is refused at the limit exactly when the
body, prefix included, is longer than 8 MiB. Before every read the received length is within the
limit, so that the subtraction in the test does not wrap, and what has been written is that much
of the body. The callers enter with failure code 13, never with 12. -/
theorem capture_limit_exact (stream : OutputStream) (chunks : List Chunk) (bodyPrefix : Bytes)
    (failure : ℕ) (takes : ∀ index, stream.writes index = .complete)
    (smallPrefix : bodyPrefix.length ≤ readCapacity) (other : failure ≠ 12) :
    ((copyRemainingBody true stream ⟨chunks, .closed⟩ failure bodyPrefix).copied = false ∧
        (copyRemainingBody true stream ⟨chunks, .closed⟩ failure bodyPrefix).failureCode = 12 ↔
      8388608 < (bodyPrefix ++ delivered chunks).length) ∧
      ∃ visits,
        run (copyTurn true stream .closed failure) (chunks.length + 1)
            (copyStart chunks bodyPrefix) =
          some (visits, copyRemainingBody true stream ⟨chunks, .closed⟩ failure bodyPrefix) ∧
        ∀ state ∈ visits, state.received ≤ 8388608 ∧
          captureRoom state.received = 8388608 - state.received ∧
          state.written = (bodyPrefix ++ delivered chunks).take state.received := by
  have bound : bodyPrefix.length ≤ maxCaptureBytes := smallPrefix.trans (by decide)
  rw [copyRemainingBody_eq_copyLoop takes _ bound]
  constructor
  · rw [List.length_append]
    exact copyLoop_limit_iff takes other bound
  · obtain ⟨visits, ran⟩ := run_copyTurn true stream .closed failure chunks
      (copyStart chunks bodyPrefix).writes bodyPrefix.length bodyPrefix
    refine ⟨visits, ran, ?_⟩
    intro state member
    obtain ⟨index, here⟩ := List.mem_iff_getElem?.mp member
    have within : WithinCapture (bodyPrefix ++ delivered chunks) state :=
      visits_induction (motive := fun _ => WithinCapture (bodyPrefix ++ delivered chunks)) ran
        (withinCapture_copyStart bound)
        (fun _ _ _ _ _ went kept => kept.next went) here
    exact ⟨within.bound, captureRoom_eq within.bound, within.written_eq⟩

/-- 513 reads that are almost full, which is more than the limit holds. -/
def overfullReads : List Chunk :=
  List.replicate 513 ⟨filler 16383, List.cons_ne_nil _ _, by rw [length_filler]; decide⟩

theorem capture_limit_exact_overfull :
    (copyRemainingBody true ⟨fun _ => .complete, true⟩ ⟨overfullReads, .closed⟩ 13 []).copied =
        false ∧
      (copyRemainingBody true ⟨fun _ => .complete, true⟩ ⟨overfullReads, .closed⟩ 13
        []).failureCode = 12 := by
  refine (capture_limit_exact ⟨fun _ => .complete, true⟩ overfullReads [] 13 (fun _ => rfl)
    (by decide) (by decide)).1.mpr ?_
  have total : (delivered overfullReads).length = 513 * 16383 := by
    rw [delivered, overfullReads, List.length_flatMap, List.map_replicate, List.sum_replicate_nat,
      length_filler]
  rw [List.nil_append, total]
  decide

end IcuTransport.Wire
