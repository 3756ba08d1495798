import IcuTransport.Wire.Reading

/-!
# Reads and the responses they carry

The network cuts a response into reads as it likes. An accepted response does not show the cuts:
its fields are those of its head, the prefix handed over with it fits the buffer, and copying
writes exactly the body (`readHeadLoop_accepted`, `copyRemainingBody_of_copied`). Which responses
are accepted does depend on the cuts: the read that completes the head may carry so much of the
body that the total passes the limit on the head (`readResponseHead_accepted_iff`).
-/

set_option autoImplicit false

namespace IcuTransport.Wire

open Ascii TextScan

/-! ## The head -/

theorem finishHead_accepted {head available : Bytes} {rest left : List Chunk}
    {fields : ResponseHead} {bodyPrefix : Bytes}
    (accepted : finishHead head available rest = .accepted fields bodyPrefix left) :
    parseResponseHead head = some fields ∧ available = bodyPrefix ∧ rest = left := by
  unfold finishHead at accepted
  cases parsed : parseResponseHead head with
  | none => simp only [parsed] at accepted; cases accepted
  | some found =>
      simp only [parsed] at accepted
      split at accepted
      · cases accepted
      · cases accepted
        exact ⟨rfl, rfl, rfl⟩

/-- **What an accepted head was read from**: some of the reads hold the head and the prefix of the
body, and no more bytes than the limit on the head. -/
theorem readHeadLoop_accepted {ending : Ending} {chunks rest : List Chunk} {headers : Bytes}
    {fields : ResponseHead} {bodyPrefix : Bytes}
    (accepted : readHeadLoop ending chunks headers = .accepted fields bodyPrefix rest) :
    ∃ used head, chunks = used ++ rest ∧ headers ++ delivered used = head ++ bodyPrefix ∧
      IsHead head ∧ parseResponseHead head = some fields ∧
      (headers ++ delivered used).length ≤ maxHeaderBytes := by
  induction chunks generalizing headers with
  | nil =>
      unfold readHeadLoop at accepted
      split at accepted
      · cases ending <;> cases accepted
      · cases accepted
  | cons chunk later ih =>
      unfold readHeadLoop at accepted
      split at accepted
      · split at accepted
        · cases accepted
        · rename_i within
          cases found : findHeaderEnd (headers ++ chunk.bytes) with
          | some parts =>
              obtain ⟨head, available⟩ := parts
              simp only [found] at accepted
              obtain ⟨parsed, rfl, rfl⟩ := finishHead_accepted accepted
              obtain ⟨split, isHead⟩ := findHeaderEnd_eq_some_iff.mp found
              refine ⟨[chunk], head, rfl, ?_, isHead, parsed, ?_⟩
              · simpa using split
              · simp only [delivered_cons, delivered_nil, List.append_nil, List.length_append]
                omega
          | none =>
              simp only [found] at accepted
              obtain ⟨used, head, rfl, split, isHead, parsed, bound⟩ := ih accepted
              refine ⟨chunk :: used, head, rfl, ?_, isHead, parsed, ?_⟩
              · rw [delivered_cons, ← List.append_assoc, split]
              · rwa [delivered_cons, ← List.append_assoc]
      · cases accepted

/-- What is left of the last read after the head is less than that read. -/
theorem available_lt {headers head available : Bytes} {chunk : Chunk}
    (pending : findHeaderEnd headers = none)
    (found : findHeaderEnd (headers ++ chunk.bytes) = some (head, available)) :
    available.length < readCapacity := by
  have longer := length_lt_of_findHeaderEnd pending found
  have total := congrArg List.length (findHeaderEnd_eq_some_iff.mp found).1
  have bound := chunk.fits
  simp only [List.length_append] at total
  omega

/-- **The prefix of the body always fits its buffer.** -/
theorem readHeadLoop_ne_prefixTooLarge {ending : Ending} {chunks : List Chunk} {headers : Bytes}
    (pending : findHeaderEnd headers = none) :
    readHeadLoop ending chunks headers ≠ .refused .prefixTooLarge := by
  induction chunks generalizing headers with
  | nil =>
      unfold readHeadLoop
      split
      · cases ending <;> simp
      · simp
  | cons chunk later ih =>
      unfold readHeadLoop
      split
      · split
        · simp
        · cases found : findHeaderEnd (headers ++ chunk.bytes) with
          | none => exact ih found
          | some parts =>
              have fits := available_lt pending found
              simp only [finishHead]
              cases parseResponseHead parts.1 with
              | none => simp
              | some fields =>
                  simp only [if_neg (by omega : ¬ parts.2.length > readCapacity)]
                  simp
      · simp

/-- A complete head is accepted when some of the reads hold it and stay within the limit. -/
theorem readHeadLoop_complete {ending : Ending} {chunks : List Chunk} {headers head body : Bytes}
    {fields : ResponseHead} (isHead : IsHead head) (parsed : parseResponseHead head = some fields)
    (stream : headers ++ delivered chunks = head ++ body) (pending : headers.length < head.length)
    {used rest : List Chunk} (split : chunks = used ++ rest)
    (enough : head.length ≤ (headers ++ delivered used).length)
    (within : (headers ++ delivered used).length ≤ maxHeaderBytes) :
    ∃ bodyPrefix left, readHeadLoop ending chunks headers = .accepted fields bodyPrefix left := by
  induction used generalizing headers chunks with
  | nil =>
      simp only [delivered_nil, List.append_nil] at enough
      omega
  | cons chunk used ih =>
      subst split
      rw [List.cons_append, delivered_cons, ← List.append_assoc] at stream
      rw [delivered_cons, ← List.append_assoc] at enough within
      have notFound : findHeaderEnd headers = none :=
        findHeaderEnd_take isHead
          ((List.prefix_append headers (chunk.bytes ++ delivered (used ++ rest))).trans
            ⟨[], by rw [List.append_nil, ← List.append_assoc, stream]⟩) pending
      simp only [List.length_append] at within
      rw [List.cons_append, readHeadLoop, if_pos (by
        have := List.length_pos_of_ne_nil chunk.nonempty
        omega), if_neg (by omega)]
      by_cases complete : head.length ≤ (headers ++ chunk.bytes).length
      · -- this read completes the head
        have starts : head <+: headers ++ chunk.bytes :=
          List.prefix_of_prefix_length_le ⟨body, rfl⟩ (stream ▸ List.prefix_append _ _) complete
        obtain ⟨available, cut⟩ := starts
        have found : findHeaderEnd (headers ++ chunk.bytes) = some (head, available) :=
          findHeaderEnd_eq_some_iff.mpr ⟨cut.symm, isHead⟩
        have fits := available_lt notFound found
        refine ⟨available, used ++ rest, ?_⟩
        simp only [found, finishHead, parsed]
        rw [if_neg (by omega)]
      · have still : findHeaderEnd (headers ++ chunk.bytes) = none :=
          findHeaderEnd_take isHead (stream ▸ List.prefix_append _ _) (by omega)
        simp only [still]
        exact ih stream (by omega) rfl enough (by simpa only [List.length_append] using within)

/-- **What is accepted of a stream that starts with a head**: the fields of that head, and the rest
of the stream split between the prefix and the later reads. -/
theorem readResponseHead_accepted {ending : Ending} {chunks rest : List Chunk} {head body : Bytes}
    {fields : ResponseHead} {bodyPrefix : Bytes} (isHead : IsHead head)
    (stream : delivered chunks = head ++ body)
    (accepted : readResponseHead ⟨chunks, ending⟩ = .accepted fields bodyPrefix rest) :
    parseResponseHead head = some fields ∧ bodyPrefix ++ delivered rest = body ∧
      ∃ used, chunks = used ++ rest ∧ delivered used = head ++ bodyPrefix ∧
        (delivered used).length ≤ maxHeaderBytes := by
  obtain ⟨used, head', rfl, split, isHead', parsed, bound⟩ := readHeadLoop_accepted accepted
  rw [List.nil_append] at split bound
  have whole : head' ++ (bodyPrefix ++ delivered rest) = head ++ body := by
    rw [← stream, ← List.append_assoc, ← split, delivered_append]
  have same := (findHeaderEnd_append isHead' (bodyPrefix ++ delivered rest)).symm.trans
    ((congrArg findHeaderEnd whole).trans (findHeaderEnd_append isHead body))
  obtain ⟨rfl, rfl⟩ := Prod.mk.inj (Option.some.inj same)
  exact ⟨parsed, rfl, used, rfl, split, bound⟩

/-- **When a valid head is accepted**: exactly when some number of reads holds all of it and no
more than the limit. -/
theorem readResponseHead_accepted_iff {ending : Ending} {chunks : List Chunk} {head body : Bytes}
    {fields : ResponseHead} (isHead : IsHead head) (parsed : parseResponseHead head = some fields)
    (stream : delivered chunks = head ++ body) :
    (∃ found bodyPrefix rest,
        readResponseHead ⟨chunks, ending⟩ = .accepted found bodyPrefix rest) ↔
      ∃ used rest, chunks = used ++ rest ∧ head.length ≤ (delivered used).length ∧
        (delivered used).length ≤ maxHeaderBytes := by
  constructor
  · rintro ⟨found, bodyPrefix, rest, accepted⟩
    obtain ⟨_, _, used, split, held, bound⟩ := readResponseHead_accepted isHead stream accepted
    refine ⟨used, rest, split, ?_, bound⟩
    rw [held, List.length_append]
    omega
  · rintro ⟨used, rest, split, enough, within⟩
    obtain ⟨bodyPrefix, left, accepted⟩ : ∃ bodyPrefix left,
        readHeadLoop ending chunks [] = .accepted fields bodyPrefix left :=
      readHeadLoop_complete isHead parsed stream isHead.length_pos split enough within
    exact ⟨fields, bodyPrefix, left, accepted⟩

/-- Some of the reads hold as much as is needed, and at most one read more. -/
theorem exists_reads {chunks : List Chunk} {needed : ℕ}
    (enough : needed ≤ (delivered chunks).length) :
    ∃ used rest, chunks = used ++ rest ∧ needed ≤ (delivered used).length ∧
      (delivered used).length ≤ needed + readCapacity := by
  induction chunks generalizing needed with
  | nil => exact ⟨[], [], rfl, enough, Nat.zero_le _⟩
  | cons chunk chunks ih =>
      have fits := chunk.fits
      rw [delivered_cons, List.length_append] at enough
      by_cases held : needed ≤ chunk.bytes.length
      · refine ⟨[chunk], chunks, rfl, ?_, ?_⟩
        · simpa [delivered_cons] using held
        · simp only [delivered_cons, delivered_nil, List.append_nil]
          omega
      · obtain ⟨used, rest, rfl, least, most⟩ :=
          @ih (needed - chunk.bytes.length) (by omega)
        refine ⟨chunk :: used, rest, rfl, ?_, ?_⟩
        · rw [delivered_cons, List.length_append]
          omega
        · rw [delivered_cons, List.length_append]
          omega

/-- **A head that leaves room for a read is accepted** in every cut. -/
theorem readResponseHead_of_room {ending : Ending} {chunks : List Chunk} {head body : Bytes}
    {fields : ResponseHead} (isHead : IsHead head) (parsed : parseResponseHead head = some fields)
    (stream : delivered chunks = head ++ body)
    (room : head.length + readCapacity ≤ maxHeaderBytes) :
    ∃ bodyPrefix rest,
      readResponseHead ⟨chunks, ending⟩ = .accepted fields bodyPrefix rest ∧
        bodyPrefix ++ delivered rest = body := by
  obtain ⟨used, rest, split, least, most⟩ := exists_reads
    (show head.length ≤ (delivered chunks).length by rw [stream]; simp)
  obtain ⟨found, bodyPrefix, left, accepted⟩ : ∃ found bodyPrefix left,
      readResponseHead ⟨chunks, ending⟩ = .accepted found bodyPrefix left :=
    (readResponseHead_accepted_iff isHead parsed stream).mpr
      ⟨used, rest, split, least, most.trans room⟩
  obtain ⟨parsed', body', _⟩ := readResponseHead_accepted isHead stream accepted
  obtain rfl := Option.some.inj (parsed.symm.trans parsed')
  exact ⟨bodyPrefix, left, accepted, body'⟩

/-- **An accepted response is a head and a body**, and the fields are those of the head. -/
theorem readResponseHead_split {connection : Connection} {fields : ResponseHead}
    {bodyPrefix : Bytes}
    {rest : List Chunk}
    (accepted : readResponseHead connection = .accepted fields bodyPrefix rest) :
    ∃ head, IsHead head ∧ delivered connection.chunks = head ++ (bodyPrefix ++ delivered rest) ∧
      parseResponseHead head = some fields := by
  obtain ⟨used, head, chunks, split, isHead, parsed, _⟩ := readHeadLoop_accepted accepted
  rw [List.nil_append] at split
  refine ⟨head, isHead, ?_, parsed⟩
  rw [chunks, delivered_append, split, List.append_assoc]

/-! ## The body -/

theorem captureRoom_eq {received : ℕ} (bound : received ≤ maxCaptureBytes) :
    captureRoom received = maxCaptureBytes - received := by
  unfold captureRoom maxCaptureBytes at *
  omega

theorem writeOutput_true {outcome : WriteOutcome} {bytes taken : Bytes}
    (written : writeOutput outcome bytes = (taken, true)) : taken = bytes := by
  cases outcome with
  | complete => cases written; rfl
  | short count =>
      simp only [writeOutput, Prod.mk.injEq, decide_eq_true_eq] at written
      rw [← written.1, List.take_of_length_le written.2]

theorem copyLoop_of_copied {toFile : Bool} {stream : OutputStream} {ending : Ending} {failure : ℕ}
    {chunks : List Chunk} {writes received : ℕ} {written : Bytes}
    (copied : (copyLoop toFile stream ending failure chunks writes received written).copied = true)
    (bound : toFile = true → received ≤ maxCaptureBytes) :
    ending = .closed ∧ stream.flushes = true ∧
      copyLoop toFile stream ending failure chunks writes received written =
        ⟨true, failure, received + (delivered chunks).length, written ++ delivered chunks⟩ ∧
      (toFile = true → received + (delivered chunks).length ≤ maxCaptureBytes) := by
  induction chunks generalizing writes received written with
  | nil =>
      cases ending with
      | closed =>
          simp only [copyLoop] at copied
          simpa [copyLoop, copied] using bound
      | failed timedOut => cases copied
  | cons chunk rest ih =>
      unfold copyLoop at copied ⊢
      split at copied
      · cases copied
      · rename_i room
        cases outcome : writeOutput (stream.writes writes) chunk.bytes with
        | mk taken complete =>
            cases complete with
            | false => simp only [outcome] at copied; cases copied
            | true =>
                simp only [outcome] at copied ⊢
                have all := writeOutput_true outcome
                subst all
                have step : toFile = true → received + chunk.bytes.length ≤ maxCaptureBytes := by
                  intro file
                  have small := bound file
                  have fits : ¬ chunk.bytes.length > captureRoom received :=
                    fun long => room ⟨file, long⟩
                  rw [captureRoom_eq small] at fits
                  omega
                obtain ⟨closed, flushed, result, total⟩ := ih copied step
                rw [if_neg room, result]
                refine ⟨closed, flushed, ?_, ?_⟩
                · simp only [delivered_cons, List.length_append, List.append_assoc, add_assoc]
                · intro file
                  simpa only [delivered_cons, List.length_append, add_assoc] using total file

/-- **A body that was copied**: the stream ended, all of the body is in the output, the received
length is its length, and a captured one is within the limit. -/
theorem copyRemainingBody_of_copied {toFile : Bool} {stream : OutputStream}
    {connection : Connection} {failure : ℕ} {bodyPrefix : Bytes}
    (copied : (copyRemainingBody toFile stream connection failure bodyPrefix).copied = true) :
    connection.ending = .closed ∧ stream.flushes = true ∧
      copyRemainingBody toFile stream connection failure bodyPrefix =
        ⟨true, failure, (bodyPrefix ++ delivered connection.chunks).length,
          bodyPrefix ++ delivered connection.chunks⟩ ∧
      (toFile = true →
        (bodyPrefix ++ delivered connection.chunks).length ≤ maxCaptureBytes) := by
  unfold copyRemainingBody at copied ⊢
  split at copied
  · cases copied
  · rename_i room
    rw [if_neg room]
    split at copied
    · rename_i empty
      subst empty
      simpa using copyLoop_of_copied copied (fun _ => Nat.zero_le _)
    · rename_i nonempty
      rw [if_neg nonempty]
      cases outcome : writeOutput (stream.writes 0) bodyPrefix with
      | mk taken complete =>
          cases complete with
          | false => simp only [outcome] at copied; cases copied
          | true =>
              simp only [outcome] at copied ⊢
              have all := writeOutput_true outcome
              subst all
              have bound : toFile = true → taken.length ≤ maxCaptureBytes := fun file =>
                Nat.le_of_not_lt fun long => room ⟨file, long⟩
              simpa only [List.length_append] using copyLoop_of_copied copied bound

/-- A stream whose writes and flush all succeed. -/
def OutputStream.Reliable (stream : OutputStream) : Prop :=
  (∀ index, stream.writes index = .complete) ∧ stream.flushes = true

theorem copyLoop_complete {toFile : Bool} {stream : OutputStream} (reliable : stream.Reliable)
    {failure : ℕ} {chunks : List Chunk} {writes received : ℕ} {written : Bytes}
    (bound : toFile = true → received + (delivered chunks).length ≤ maxCaptureBytes) :
    (copyLoop toFile stream .closed failure chunks writes received written).copied = true := by
  induction chunks generalizing writes received written with
  | nil => exact reliable.2
  | cons chunk rest ih =>
      have room : ¬ (toFile = true ∧ chunk.bytes.length > captureRoom received) := by
        rintro ⟨file, long⟩
        have total := bound file
        rw [delivered_cons, List.length_append] at total
        rw [captureRoom_eq (by omega)] at long
        omega
      rw [copyLoop, if_neg room]
      simp only [writeOutput, reliable.1 writes]
      apply ih
      intro file
      simpa only [delivered_cons, List.length_append, add_assoc] using bound file

/-- A body within the limit is copied to a reliable stream. -/
theorem copyRemainingBody_complete {toFile : Bool} {stream : OutputStream}
    (reliable : stream.Reliable) {failure : ℕ} {chunks : List Chunk} {bodyPrefix : Bytes}
    (bound : toFile = true → (bodyPrefix ++ delivered chunks).length ≤ maxCaptureBytes) :
    (copyRemainingBody toFile stream ⟨chunks, .closed⟩ failure bodyPrefix).copied = true := by
  simp only [List.length_append] at bound
  have room : ¬ (toFile = true ∧ bodyPrefix.length > maxCaptureBytes) := by
    rintro ⟨file, long⟩
    have := bound file
    omega
  rw [copyRemainingBody, if_neg room]
  split
  · rename_i empty
    subst empty
    exact copyLoop_complete reliable (by simpa using bound)
  · simp only [writeOutput, reliable.1 0]
    exact copyLoop_complete reliable bound

theorem writeOutput_false {outcome : WriteOutcome} {bytes taken : Bytes}
    (written : writeOutput outcome bytes = (taken, false)) : taken.length < bytes.length := by
  cases outcome with
  | complete => cases written
  | short count =>
      simp only [writeOutput, Prod.mk.injEq, decide_eq_false_iff_not] at written
      rw [← written.1, List.length_take]
      omega

/-- When everything that arrived was written, only the flush can fail. -/
theorem copyLoop_of_written {toFile : Bool} {stream : OutputStream} {failure : ℕ}
    {chunks : List Chunk} {writes received : ℕ} {written : Bytes}
    (all : (copyLoop toFile stream .closed failure chunks writes received written).written =
      written ++ delivered chunks) :
    (copyLoop toFile stream .closed failure chunks writes received written).copied =
      stream.flushes := by
  induction chunks generalizing writes received written with
  | nil => rfl
  | cons chunk rest ih =>
      have filled := List.length_pos_of_ne_nil chunk.nonempty
      unfold copyLoop at all ⊢
      split at all
      · have unchanged : written = written ++ delivered (chunk :: rest) := all
        have lengths := congrArg List.length unchanged
        rw [delivered_cons, List.length_append, List.length_append] at lengths
        omega
      · rename_i room
        rw [if_neg room]
        cases outcome : writeOutput (stream.writes writes) chunk.bytes with
        | mk taken complete =>
            cases complete with
            | false =>
                simp only [outcome] at all
                have lengths := congrArg List.length all
                have short := writeOutput_false outcome
                rw [delivered_cons, List.length_append, List.length_append, List.length_append]
                  at lengths
                omega
            | true =>
                simp only [outcome] at all ⊢
                obtain rfl := writeOutput_true outcome
                rw [delivered_cons, ← List.append_assoc] at all
                exact ih all

theorem copyRemainingBody_of_written {toFile : Bool} {stream : OutputStream} {failure : ℕ}
    {chunks : List Chunk} {bodyPrefix : Bytes}
    (all : (copyRemainingBody toFile stream ⟨chunks, .closed⟩ failure bodyPrefix).written =
      bodyPrefix ++ delivered chunks) (small : bodyPrefix.length ≤ maxCaptureBytes) :
    (copyRemainingBody toFile stream ⟨chunks, .closed⟩ failure bodyPrefix).copied =
      stream.flushes := by
  have room : ¬ (toFile = true ∧ bodyPrefix.length > maxCaptureBytes) := by omega
  unfold copyRemainingBody at all ⊢
  rw [if_neg room] at all ⊢
  split at all
  · rename_i empty
    rw [if_pos empty]
    exact copyLoop_of_written (by rw [all, empty])
  · rename_i filled
    rw [if_neg filled]
    cases outcome : writeOutput (stream.writes 0) bodyPrefix with
    | mk taken complete =>
        cases complete with
        | false =>
            simp only [outcome] at all
            have lengths := congrArg List.length all
            have short := writeOutput_false outcome
            rw [List.length_append] at lengths
            omega
        | true =>
            simp only [outcome] at all ⊢
            obtain rfl := writeOutput_true outcome
            exact copyLoop_of_written all

theorem writeOutput_prefix (outcome : WriteOutcome) (bytes : Bytes) :
    (writeOutput outcome bytes).1 <+: bytes := by
  cases outcome with
  | complete => exact List.prefix_rfl
  | short count => exact List.take_prefix count bytes

theorem copyLoop_written_prefix (toFile : Bool) (stream : OutputStream) (ending : Ending)
    (failure : ℕ) (chunks : List Chunk) (writes received : ℕ) (written : Bytes) :
    (copyLoop toFile stream ending failure chunks writes received written).written <+:
      written ++ delivered chunks := by
  induction chunks generalizing writes received written with
  | nil =>
      cases ending with
      | closed => exact List.prefix_append written []
      | failed timedOut => exact List.prefix_append written []
  | cons chunk rest ih =>
      have within := writeOutput_prefix (stream.writes writes) chunk.bytes
      unfold copyLoop
      rw [delivered_cons]
      split
      · exact List.prefix_append written _
      · cases outcome : writeOutput (stream.writes writes) chunk.bytes with
        | mk taken complete =>
            rw [outcome] at within
            cases complete with
            | false =>
                refine (List.prefix_append_right_inj written).mpr ?_
                exact within.trans (List.prefix_append chunk.bytes _)
            | true =>
                obtain rfl := writeOutput_true outcome
                have later := ih (writes + 1) (received + chunk.bytes.length)
                  (written ++ chunk.bytes)
                rw [List.append_assoc] at later
                exact later

/-- **Whatever a copy writes is a prefix of the body.** -/
theorem copyRemainingBody_written_prefix (toFile : Bool) (stream : OutputStream)
    (connection : Connection) (failure : ℕ) (bodyPrefix : Bytes) :
    (copyRemainingBody toFile stream connection failure bodyPrefix).written <+:
      bodyPrefix ++ delivered connection.chunks := by
  have within := writeOutput_prefix (stream.writes 0) bodyPrefix
  unfold copyRemainingBody
  split
  · exact List.nil_prefix
  · split
    · rename_i empty
      rw [empty]
      exact copyLoop_written_prefix _ _ _ _ _ _ _ []
    · cases outcome : writeOutput (stream.writes 0) bodyPrefix with
      | mk taken complete =>
          rw [outcome] at within
          cases complete with
          | false => exact within.trans (List.prefix_append bodyPrefix _)
          | true =>
              obtain rfl := writeOutput_true outcome
              exact copyLoop_written_prefix _ _ _ _ _ _ _ taken

/-! ## Segmentation -/

/-- **Segmentation never changes an accepted response.** Whatever the cuts, an accepted response
has the fields of its head, the output is its body and the received length is the length of the
body. No connection makes the prefix of the body too large for its buffer. -/
theorem accepted_response_unsegmented (toFile : Bool) (stream : OutputStream) (head body : Bytes)
    (chunks : List Chunk) (isHead : IsHead head) (sent : delivered chunks = head ++ body) :
    (∀ fields bodyPrefix rest,
      readResponseHead ⟨chunks, .closed⟩ = .accepted fields bodyPrefix rest →
      (copyRemainingBody toFile stream ⟨rest, .closed⟩ 13 bodyPrefix).copied = true →
        parseResponseHead head = some fields ∧
        (copyRemainingBody toFile stream ⟨rest, .closed⟩ 13 bodyPrefix).written = body ∧
        (copyRemainingBody toFile stream ⟨rest, .closed⟩ 13 bodyPrefix).received = body.length) ∧
      ∀ connection, readResponseHead connection ≠ .refused .prefixTooLarge := by
  refine ⟨fun fields bodyPrefix rest accepted copied => ?_, fun connection => ?_⟩
  · obtain ⟨parsed, rfl, _⟩ := readResponseHead_accepted isHead sent accepted
    obtain ⟨_, _, result, _⟩ := copyRemainingBody_of_copied copied
    rw [result]
    exact ⟨parsed, rfl, rfl⟩
  · exact readHeadLoop_ne_prefixTooLarge (by decide)

/-- Two reads that cut the end of the head after its first CRLF. -/
def straddlingReads : List Chunk :=
  [⟨ascii "HTTP/1.0 200 OK\r\n", by decide, by decide⟩, ⟨ascii "\r\nhi", by decide, by decide⟩]

theorem accepted_response_unsegmented_straddling :
    ∃ fields bodyPrefix rest,
      readResponseHead ⟨straddlingReads, .closed⟩ = .accepted fields bodyPrefix rest ∧
        (copyRemainingBody true ⟨fun _ => .complete, true⟩ ⟨rest, .closed⟩ 13 bodyPrefix).written =
          ascii "hi" := by
  have whole := (accepted_response_unsegmented true ⟨fun _ => .complete, true⟩
    (ascii "HTTP/1.0 200 OK\r\n\r\n") (ascii "hi") straddlingReads (by decide) (by decide)).1
  exact ⟨_, _, _, rfl, (whole _ _ _ rfl rfl).2.1⟩

/-- **The limit on the head is met exactly by the cuts that stay within it.** A head with a valid
status is accepted when some number of reads holds all of it and at most 64 KiB. A head of at
most 64 KiB is refused when the read that completes it brings the total above that. -/
theorem valid_head_accepted_iff (head body : Bytes) (chunks : List Chunk) (ending : Ending)
    (isHead : IsHead head)
    (valid : ∃ status, parseStatus head = some status ∧ 100 ≤ status ∧ status ≤ 599)
    (sent : delivered chunks = head ++ body) :
    (∃ fields bodyPrefix rest,
        readResponseHead ⟨chunks, ending⟩ = .accepted fields bodyPrefix rest) ↔
      ∃ used rest, chunks = used ++ rest ∧ head.length ≤ (delivered used).length ∧
        (delivered used).length ≤ maxHeaderBytes := by
  obtain ⟨fields, parsed⟩ := parseResponseHead_isSome_iff.mpr valid
  exact readResponseHead_accepted_iff isHead parsed sent

theorem valid_head_accepted_iff_straddling :
    ∃ fields bodyPrefix rest,
      readResponseHead ⟨straddlingReads, .closed⟩ = .accepted fields bodyPrefix rest :=
  (valid_head_accepted_iff (ascii "HTTP/1.0 200 OK\r\n\r\n") (ascii "hi") straddlingReads .closed
    (by decide) ⟨200, by decide⟩ (by decide)).mpr ⟨straddlingReads, [], rfl, by decide, by decide⟩

/-- The letter `a`, so many times. -/
def filler (count : ℕ) : Bytes := List.replicate count 97

theorem length_filler (count : ℕ) : (filler count).length = count := List.length_replicate

theorem filler_add (first second : ℕ) : filler (first + second) = filler first ++ filler second :=
  (List.replicate_append_replicate).symm

theorem lf_not_mem_filler (count : ℕ) : lf ∉ filler count := by
  intro member
  exact absurd (List.eq_of_mem_replicate member) (by decide)

/-- A head that is one status line with so much filler as its reason. -/
def fillerHead (count : ℕ) : Bytes := ascii "HTTP/1.0 200 " ++ filler count ++ (crlf ++ crlf)

theorem isHead_fillerHead (count : ℕ) : IsHead (fillerHead count) := by
  refine ⟨List.suffix_append _ _, fun occurs => ?_⟩
  -- the terminator has two LFs, and the head without its last byte only one
  have lines := occurs.sublist.count_le lf
  have last : (fillerHead count).dropLast =
      ascii "HTTP/1.0 200 " ++ filler count ++ (crlf ++ crlf).dropLast :=
    List.dropLast_append_of_ne_nil crlfcrlf_ne_nil
  have none : (filler count).count lf = 0 := List.count_eq_zero.mpr (lf_not_mem_filler count)
  simp only [last, List.count_append, none] at lines
  exact absurd lines (by decide)

theorem parseStatus_fillerHead (count : ℕ) : parseStatus (fillerHead count) = some 200 := by
  have line : splitFirst lf (fillerHead count) =
      some (ascii "HTTP/1.0 200 " ++ filler count ++ [cr], crlf) := by
    refine splitFirst_eq_some_iff.mpr ⟨by simp [fillerHead, crlf], ?_⟩
    simp only [List.mem_append, not_or]
    exact ⟨⟨by decide, lf_not_mem_filler count⟩, by decide⟩
  have long : ¬ (ascii "HTTP/1.0 200 " ++ filler count ++ [cr]).length < 13 := by
    simp only [List.length_append, (by decide : (ascii "HTTP/1.0 200 ").length = 13)]
    omega
  have start : (fillerHead count).take 7 = ascii "HTTP/1." ∧ (fillerHead count).getD 7 nul = 48 ∧
      (fillerHead count).getD 8 nul = space ∧ (fillerHead count).getD 9 nul = 50 ∧
      (fillerHead count).getD 10 nul = 48 ∧ (fillerHead count).getD 11 nul = 48 ∧
      (fillerHead count).getD 12 nul = space :=
    ⟨rfl, rfl, rfl, rfl, rfl, rfl, rfl⟩
  simp only [parseStatus, line, start]
  rw [if_neg (by simpa using long), if_neg (by omega)]
  rfl

/-- Reads of 1 byte and four times 16384 bytes. The last one completes a head of 64 KiB and
carries one byte of body. -/
def overshootingReads : List Chunk :=
  [⟨ascii "H", by decide, by decide⟩,
    ⟨ascii "TTP/1.0 200 " ++ filler 16372, List.cons_ne_nil _ _, by
      rw [List.length_append, length_filler]; decide⟩,
    ⟨filler 16384, List.cons_ne_nil _ _, by rw [length_filler]; decide⟩,
    ⟨filler 16384, List.cons_ne_nil _ _, by rw [length_filler]; decide⟩,
    ⟨filler 16379 ++ (crlf ++ crlf ++ ascii "!"), List.cons_ne_nil _ _, by
      rw [List.length_append, length_filler]; decide⟩]

theorem delivered_overshootingReads :
    delivered overshootingReads = fillerHead 65519 ++ ascii "!" := by
  have fill : filler 65519 = filler 16372 ++ (filler 16384 ++ (filler 16384 ++ filler 16379)) := by
    rw [← filler_add, ← filler_add, ← filler_add]
  have line : ascii "HTTP/1.0 200 " = ascii "H" ++ ascii "TTP/1.0 200 " := by decide
  simp only [fillerHead, overshootingReads, delivered_cons, delivered_nil, fill, line,
    List.append_assoc, List.append_nil]

theorem overshootingReads_refused :
    IsHead (fillerHead 65519) ∧ (fillerHead 65519).length = maxHeaderBytes ∧
      parseStatus (fillerHead 65519) = some 200 ∧
      delivered overshootingReads = fillerHead 65519 ++ ascii "!" ∧
      ∀ fields bodyPrefix rest,
        readResponseHead ⟨overshootingReads, .closed⟩ ≠ .accepted fields bodyPrefix rest := by
  have size : (fillerHead 65519).length = maxHeaderBytes := by
    rw [fillerHead, List.length_append, List.length_append, length_filler]
    rfl
  refine ⟨isHead_fillerHead _, size, parseStatus_fillerHead _, delivered_overshootingReads, ?_⟩
  intro fields bodyPrefix rest accepted
  obtain ⟨parsed, _, used, split, held, bound⟩ :=
    readResponseHead_accepted (isHead_fillerHead _) delivered_overshootingReads accepted
  have total : (delivered used).length = 65536 := by
    have atLeast : (fillerHead 65519).length ≤ (delivered used).length := by
      rw [held, List.length_append]
      omega
    rw [size] at atLeast
    exact le_antisymm bound atLeast
  -- the reads add up to 0, 1, 16385, 32769, 49153 or 65537 bytes
  have initial : used ∈ overshootingReads.inits := (List.mem_inits _ _).mpr ⟨rest, split.symm⟩
  simp only [overshootingReads, List.inits, List.map_cons, List.map_nil, List.mem_cons,
    List.not_mem_nil, or_false] at initial
  rcases initial with rfl | rfl | rfl | rfl | rfl | rfl <;>
    simp only [delivered_cons, delivered_nil, List.length_append, length_filler] at total <;>
    exact absurd total (by decide)

end IcuTransport.Wire
