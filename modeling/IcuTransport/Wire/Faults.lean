import IcuTransport.Wire.Segmentation

/-!
# Whose fault it was

A response fails at the server's side when its head does not end, does not end within the limit, or
has no valid status line (`HeadFault`), and at this side when the output does not take the body: a
write that was made takes less than it was given, or the flush fails (`OutputFault`). Both are said
here of the bytes and of the output alone, and compared with what the loops report.

A head can also be refused with nothing wrong in it. The limit is tested against everything that was
read, so a head within the limit is too large when the read that completes it brings too much of the
body (`Overshot`). These are all the refusals as malformed (`headFault_or_overshot`).
-/

set_option autoImplicit false

namespace IcuTransport.Wire

open Ascii TextScan

/-! ## Faults of a head -/

/-- The status line of a head is valid. -/
def ValidStatus (head : Bytes) : Prop :=
  ∃ status, parseStatus head = some status ∧ 100 ≤ status ∧ status ≤ 599

/-- What is wrong with the head that a connection delivers, however it is cut into reads. -/
inductive HeadFault (connection : Connection) : Prop where
  /-- The stream ends before a head is complete. -/
  | ended (closed : connection.ending = .closed)
      (incomplete : findHeaderEnd (delivered connection.chunks) = none)
  /-- No head ends within the limit. -/
  | large (long : maxHeaderBytes ≤ (delivered connection.chunks).length)
      (incomplete : findHeaderEnd ((delivered connection.chunks).take maxHeaderBytes) = none)
  /-- The head that was sent has no valid status line. -/
  | status (head body : Bytes) (stream : delivered connection.chunks = head ++ body)
      (isHead : IsHead head) (invalid : ¬ ValidStatus head)

/-- The stream starts with a valid head within the limit, and every number of reads that holds this
head holds more than the limit. -/
def Overshot (connection : Connection) : Prop :=
  ∃ head body, delivered connection.chunks = head ++ body ∧ IsHead head ∧ ValidStatus head ∧
    head.length ≤ maxHeaderBytes ∧
    ∀ used rest, connection.chunks = used ++ rest → head.length ≤ (delivered used).length →
      maxHeaderBytes < (delivered used).length

section Heads

variable {ending : Ending} {chunks : List Chunk} {headers head body : Bytes}

theorem findHeaderEnd_of_append {text more : Bytes}
    (incomplete : findHeaderEnd (text ++ more) = none) :
    findHeaderEnd text = none := by
  rw [findHeaderEnd_eq_none_iff] at incomplete ⊢
  exact fun occurs => incomplete (occurs.trans (List.prefix_append text more).isInfix)

/-- A stream that stays below the limit without a head is read to its end. -/
theorem readHeadLoop_of_incomplete
    (incomplete : findHeaderEnd (headers ++ delivered chunks) = none)
    (short : (headers ++ delivered chunks).length < maxHeaderBytes) :
    readHeadLoop ending chunks headers =
      .refused (match ending with
        | .closed => .endedBeforeHeaders
        | .failed timedOut => .readFailed timedOut) := by
  induction chunks generalizing headers with
  | nil =>
      rw [delivered_nil, List.append_nil] at short
      unfold readHeadLoop
      rw [if_pos short]
      cases ending with
      | closed => rfl
      | failed timedOut => rfl
  | cons chunk rest ih =>
      rw [delivered_cons, ← List.append_assoc] at incomplete short
      have fewer := short
      simp only [List.length_append] at fewer
      rw [readHeadLoop, if_pos (by omega), if_neg (by omega), findHeaderEnd_of_append incomplete]
      exact ih incomplete short

/-- A read fails only when no head was delivered before it. -/
theorem incomplete_of_readFailed {timedOut : Bool} (pending : findHeaderEnd headers = none)
    (failed : readHeadLoop ending chunks headers = .refused (.readFailed timedOut)) :
    findHeaderEnd (headers ++ delivered chunks) = none := by
  induction chunks generalizing headers with
  | nil =>
      rw [delivered_nil, List.append_nil]
      exact pending
  | cons chunk rest ih =>
      unfold readHeadLoop at failed
      split at failed
      · split at failed
        · cases failed
        · split at failed
          · unfold finishHead at failed
            split at failed
            · cases failed
            · split at failed
              · cases failed
              · cases failed
          · rename_i still
            rw [delivered_cons, ← List.append_assoc]
            exact ih still failed
      · cases failed

/-- A valid head within the limit is not at fault. -/
theorem not_headFault {connection : Connection}
    (stream : delivered connection.chunks = head ++ body)
    (isHead : IsHead head) (valid : ValidStatus head) (within : head.length ≤ maxHeaderBytes) :
    ¬ HeadFault connection := by
  rintro (⟨_, incomplete⟩ | ⟨_, incomplete⟩ | ⟨head', body', stream', isHead', invalid⟩)
  · rw [stream, findHeaderEnd_append isHead] at incomplete
    cases incomplete
  · rw [stream, List.take_append, List.take_of_length_le within] at incomplete
    cases (findHeaderEnd_append isHead _).symm.trans incomplete
  · have same := (findHeaderEnd_append isHead body).symm.trans
      ((congrArg findHeaderEnd (stream.symm.trans stream')).trans
        (findHeaderEnd_append isHead' body'))
    obtain ⟨rfl, _⟩ := Prod.mk.inj (Option.some.inj same)
    exact invalid valid

end Heads

section Refusals

variable {connection : Connection} {reason : HeadRefusal}

/-- An accepted response has no fault in its head. -/
theorem not_headFault_of_accepted {fields : ResponseHead} {bodyPrefix : Bytes} {rest : List Chunk}
    (accepted : readResponseHead connection = .accepted fields bodyPrefix rest) :
    ¬ HeadFault connection := by
  obtain ⟨used, head, all, split, isHead, parsed, bound⟩ := readHeadLoop_accepted accepted
  rw [List.nil_append] at split bound
  have within := congrArg List.length split
  rw [List.length_append] at within
  have stream : delivered connection.chunks = head ++ (bodyPrefix ++ delivered rest) := by
    rw [all, delivered_append, split, List.append_assoc]
  have valid : ValidStatus head :=
    parseResponseHead_isSome_iff.mp ⟨fields, parsed⟩
  exact not_headFault stream isHead valid (by omega)

/-- An overshot head is refused as malformed, with no fault in it. -/
theorem refused_of_overshot (overshot : Overshot connection) :
    ¬ HeadFault connection ∧
      ∃ reason, readResponseHead connection = .refused reason ∧ reason.code = 13 := by
  obtain ⟨head, body, stream, isHead, valid, within, beyond⟩ := overshot
  obtain ⟨fields, parsed⟩ := parseResponseHead_isSome_iff.mpr valid
  refine ⟨not_headFault stream isHead valid within, ?_⟩
  cases read : readResponseHead connection with
  | accepted found bodyPrefix rest =>
      obtain ⟨used, rest, split, holds, below⟩ :=
        (readResponseHead_accepted_iff isHead parsed stream).mp ⟨found, bodyPrefix, rest, read⟩
      have above := beyond used rest split holds
      omega
  | refused reason =>
      refine ⟨reason, rfl, ?_⟩
      cases reason with
      | readFailed timedOut =>
          have empty : findHeaderEnd [] = none := by decide
          have incomplete := incomplete_of_readFailed empty read
          rw [List.nil_append, stream, findHeaderEnd_append isHead] at incomplete
          cases incomplete
      | endedBeforeHeaders => rfl
      | headersTooLarge => rfl
      | invalidStatusLine => rfl
      | prefixTooLarge => rfl

/-- **What a refusal as malformed stands for**: a fault of the head, or a head that was overshot. -/
theorem headFault_or_overshot (refused : readResponseHead connection = .refused reason)
    (malformed : reason.code = 13) : HeadFault connection ∨ Overshot connection := by
  cases found : findHeaderEnd ((delivered connection.chunks).take maxHeaderBytes) with
  | none =>
      left
      by_cases long : maxHeaderBytes ≤ (delivered connection.chunks).length
      · exact .large long found
      · rw [List.take_of_length_le (by omega)] at found
        cases ending : connection.ending with
        | closed => exact .ended ending found
        | failed timedOut =>
            have read : readResponseHead connection = _ :=
              @readHeadLoop_of_incomplete connection.ending connection.chunks [] found
                (by simpa using long)
            rw [ending] at read
            obtain rfl := HeadRead.refused.inj (refused.symm.trans read)
            cases timedOut <;> cases malformed
  | some parts =>
      obtain ⟨head, available⟩ := parts
      obtain ⟨split, isHead⟩ := findHeaderEnd_eq_some_iff.mp found
      have within := congrArg List.length split
      rw [List.length_take, List.length_append] at within
      have stream : delivered connection.chunks =
          head ++ (available ++ (delivered connection.chunks).drop maxHeaderBytes) := by
        rw [← List.append_assoc, ← split, List.take_append_drop]
      by_cases valid : ValidStatus head
      · refine Or.inr ⟨head, _, stream, isHead, valid, by omega, fun used rest cut holds => ?_⟩
        by_contra below
        obtain ⟨fields, parsed⟩ := parseResponseHead_isSome_iff.mpr valid
        obtain ⟨_, _, _, accepted⟩ := (readResponseHead_accepted_iff isHead parsed stream).mpr
          ⟨used, rest, cut, holds, not_lt.mp below⟩
        cases refused.symm.trans accepted
      · exact Or.inl (.status head _ stream isHead valid)

end Refusals

/-! ## Faults of the output -/

/-- A write takes the whole of a piece. -/
def Takes (stream : OutputStream) (index : ℕ) (piece : Bytes) : Prop :=
  (writeOutput (stream.writes index) piece).2 = true

/-- All pieces are taken, from the given write on, and there is room for them after so many
bytes. -/
def TakesAll (stream : OutputStream) (start received : ℕ) (pieces : List Bytes) : Prop :=
  (∀ index piece, pieces[index]? = some piece → Takes stream (start + index) piece) ∧
    received + pieces.flatten.length ≤ maxCaptureBytes

/-- A write of a piece for which there is room takes less than the piece, after all pieces before it
were taken; or all of them were taken, the stream ended, and the flush fails. -/
def OutputFault (stream : OutputStream) (ending : Ending) (start received : ℕ)
    (pieces : List Bytes) : Prop :=
  (∃ before piece after, pieces = before ++ piece :: after ∧ TakesAll stream start received before ∧
    received + before.flatten.length + piece.length ≤ maxCaptureBytes ∧
    ¬ Takes stream (start + before.length) piece) ∨
  (TakesAll stream start received pieces ∧ ending = .closed ∧ stream.flushes = false)

/-- The pieces a body is written in: what was read with the head, and every later read. -/
def bodyPieces (bodyPrefix : Bytes) (chunks : List Chunk) : List Bytes :=
  (if bodyPrefix = [] then [] else [bodyPrefix]) ++ chunks.map Chunk.bytes

section Output

variable {stream : OutputStream} {ending : Ending} {start received : ℕ} {piece : Bytes}
  {pieces : List Bytes}

theorem takesAll_nil : TakesAll stream start received [] ↔ received ≤ maxCaptureBytes := by
  simp [TakesAll]

/-- The first piece is taken, and the others after it. -/
theorem takesAll_cons :
    TakesAll stream start received (piece :: pieces) ↔
      Takes stream start piece ∧
        TakesAll stream (start + 1) (received + piece.length) pieces := by
  unfold TakesAll
  rw [List.flatten_cons, List.length_append, Nat.add_assoc received, ← and_assoc]
  refine and_congr_left fun _ => ?_
  constructor
  · intro taken
    refine ⟨taken 0 piece rfl, fun index other found => ?_⟩
    have later := taken (index + 1) other found
    rwa [Nat.add_comm index, ← Nat.add_assoc] at later
  · rintro ⟨first, later⟩ index other found
    cases index with
    | zero =>
        obtain rfl := Option.some.inj found
        exact first
    | succ index =>
        have taken := later index other found
        rwa [Nat.add_assoc, Nat.add_comm 1] at taken

/-- **A fault is that of the first piece, or comes after it was taken.** -/
theorem outputFault_cons (bound : received ≤ maxCaptureBytes) :
    OutputFault stream ending start received (piece :: pieces) ↔
      received + piece.length ≤ maxCaptureBytes ∧
        (¬ Takes stream start piece ∨
          Takes stream start piece ∧
            OutputFault stream ending (start + 1) (received + piece.length) pieces) := by
  constructor
  · rintro (⟨before, failed, after, split, taken, room, short⟩ | ⟨taken, closed, unflushed⟩)
    · cases before with
      | nil =>
          obtain ⟨rfl, rfl⟩ := List.cons.inj split
          simp only [List.flatten_nil, List.length_nil, Nat.add_zero] at room short
          exact ⟨room, Or.inl short⟩
      | cons first others =>
          obtain ⟨rfl, rfl⟩ := List.cons.inj split
          obtain ⟨here, later⟩ := takesAll_cons.mp taken
          simp only [List.flatten_cons, List.length_append] at room
          refine ⟨by omega, Or.inr ⟨here, Or.inl ⟨others, failed, after, rfl, later, by omega, ?_⟩⟩⟩
          rwa [List.length_cons, Nat.add_comm others.length, ← Nat.add_assoc] at short
    · obtain ⟨here, later⟩ := takesAll_cons.mp taken
      exact ⟨by have := later.2; omega, Or.inr ⟨here, Or.inr ⟨later, closed, unflushed⟩⟩⟩
  · rintro ⟨room, short | ⟨here, ⟨before, failed, after, rfl, taken, room', short⟩ |
      ⟨taken, closed, unflushed⟩⟩⟩
    · exact Or.inl ⟨[], piece, pieces, rfl, takesAll_nil.mpr bound, by simpa using room,
        by simpa using short⟩
    · refine Or.inl ⟨piece :: before, failed, after, rfl, takesAll_cons.mpr ⟨here, taken⟩, ?_, ?_⟩
      · simp only [List.flatten_cons, List.length_append]
        omega
      · rwa [List.length_cons, Nat.add_comm before.length, ← Nat.add_assoc]
    · exact Or.inr ⟨takesAll_cons.mpr ⟨here, taken⟩, closed, unflushed⟩

/-- **The loop copies a body** when every piece is taken, the stream ends and the flush succeeds. -/
theorem copyLoop_copied_iff {failure : ℕ} {chunks : List Chunk} {written : Bytes}
    (bound : received ≤ maxCaptureBytes) :
    (copyLoop true stream ending failure chunks start received written).copied = true ↔
      TakesAll stream start received (chunks.map Chunk.bytes) ∧ ending = .closed ∧
        stream.flushes = true := by
  induction chunks generalizing start received written with
  | nil =>
      rw [List.map_nil, takesAll_nil, and_iff_right bound]
      cases ending with
      | closed => simp [copyLoop]
      | failed timedOut => simp [copyLoop]
  | cons chunk rest ih =>
      rw [List.map_cons, takesAll_cons, copyLoop, captureRoom_eq bound]
      split
      · rename_i large
        simp only [Bool.false_eq_true, false_iff, not_and]
        rintro ⟨_, _, room⟩
        omega
      · rename_i room
        have next : received + chunk.bytes.length ≤ maxCaptureBytes := by
          simp only [true_and] at room
          omega
        unfold Takes
        split
        · rename_i taken written
          rw [ih next, written, and_assoc]
          simp
        · rename_i taken short
          simp [short]

/-- **The loop fails by itself** exactly when there is a fault of the output. -/
theorem copyLoop_failed_iff {chunks : List Chunk} {written : Bytes}
    (bound : received ≤ maxCaptureBytes) :
    ((copyLoop true stream ending 13 chunks start received written).copied = false ∧
        (copyLoop true stream ending 13 chunks start received written).failureCode = 13) ↔
      OutputFault stream ending start received (chunks.map Chunk.bytes) := by
  induction chunks generalizing start received written with
  | nil =>
      have none : ∀ before piece after, ([] : List Bytes) ≠ before ++ piece :: after := by
        intro before piece after
        simp
      rw [List.map_nil, OutputFault, takesAll_nil]
      cases ending with
      | closed => simp [copyLoop, none, bound]
      | failed timedOut => cases timedOut <;> simp [copyLoop, none, readFailureCode]
  | cons chunk rest ih =>
      rw [List.map_cons, outputFault_cons bound, copyLoop, captureRoom_eq bound]
      split
      · rename_i large
        simp only [true_and] at large
        simp only [Nat.reduceEqDiff, and_false, false_iff, not_and]
        intro room
        omega
      · rename_i room
        have next : received + chunk.bytes.length ≤ maxCaptureBytes := by
          simp only [true_and] at room
          omega
        unfold Takes
        split
        · rename_i taken written
          rw [ih next, written]
          simp [next]
        · rename_i taken short
          simp [short, next]

theorem bodyPieces_nil (chunks : List Chunk) : bodyPieces [] chunks = chunks.map Chunk.bytes := rfl

theorem bodyPieces_of_filled {bodyPrefix : Bytes} (filled : bodyPrefix ≠ []) (chunks : List Chunk) :
    bodyPieces bodyPrefix chunks = bodyPrefix :: chunks.map Chunk.bytes := by
  rw [bodyPieces, if_neg filled]
  rfl

/-- **A body is copied** when every piece of it is taken, the stream ends and the flush succeeds. -/
theorem copyRemainingBody_copied_iff {connection : Connection} {failure : ℕ} {bodyPrefix : Bytes} :
    (copyRemainingBody true stream connection failure bodyPrefix).copied = true ↔
      TakesAll stream 0 0 (bodyPieces bodyPrefix connection.chunks) ∧
        connection.ending = .closed ∧ stream.flushes = true := by
  by_cases empty : bodyPrefix = []
  · subst empty
    rw [copyRemainingBody, if_neg (by simp), if_pos rfl, bodyPieces_nil]
    exact copyLoop_copied_iff (Nat.zero_le _)
  · rw [bodyPieces_of_filled empty, takesAll_cons, copyRemainingBody]
    split
    · rename_i large
      simp only [Bool.false_eq_true, false_iff, not_and]
      rintro ⟨_, _, room⟩
      omega
    · rename_i room
      simp only [true_and] at room
      unfold Takes
      split
      · rename_i taken written
        rw [copyLoop_copied_iff (by omega), written, and_assoc]
        simp
      · rename_i taken short
        simp [short]

/-- **A copy fails by itself** exactly when there is a fault of the output. -/
theorem copyRemainingBody_failed_iff {connection : Connection} {bodyPrefix : Bytes} :
    ((copyRemainingBody true stream connection 13 bodyPrefix).copied = false ∧
        (copyRemainingBody true stream connection 13 bodyPrefix).failureCode = 13) ↔
      OutputFault stream connection.ending 0 0 (bodyPieces bodyPrefix connection.chunks) := by
  by_cases empty : bodyPrefix = []
  · subst empty
    rw [copyRemainingBody, if_neg (by simp), if_pos rfl, bodyPieces_nil]
    exact copyLoop_failed_iff (Nat.zero_le _)
  · rw [bodyPieces_of_filled empty, outputFault_cons (Nat.zero_le _), copyRemainingBody]
    split
    · rename_i large
      simp only [true_and] at large
      simp only [Nat.reduceEqDiff, and_false, false_iff, not_and]
      intro room
      omega
    · rename_i room
      simp only [true_and] at room
      have next : bodyPrefix.length ≤ maxCaptureBytes := by omega
      unfold Takes
      split
      · rename_i taken written
        rw [copyLoop_failed_iff (by omega), written]
        simp [next]
      · rename_i taken short
        simp [short, next]

end Output

end IcuTransport.Wire
