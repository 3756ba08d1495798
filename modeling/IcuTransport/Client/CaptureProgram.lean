import IcuTransport.Capture.FileTree
import IcuTransport.Client.Fetching

/-!
# A capture as a program of calls

A fetch makes a private directory, lets the program write two files in it, reads them back and
removes what it made. Here these steps are a program of calls on a file tree (`fetchProgram`), which
writes the body read by read and finds in the tree what it reads back.

In a private directory the calls of a native run leave there what the run is said to leave behind
(`run_nativeProgram`). In any tree and with any paths they overwrite nothing
(`capture_overwrites_nothing`).
-/

set_option autoImplicit false

namespace IcuTransport.Client

open Ascii TextScan TurnLoop Wire Redirect Capture Regions

/-! ## Calls -/

/-- A program that makes calls on files. -/
abbrev FileProgram (ρ : Type) := Program FileCall (Option Bytes) ρ

/-- Open a file that does not exist yet: whether that succeeds. Where it does not, the file may have
been created all the same. -/
def privateOutputAt (path : Bytes) (opens creates : Bool) : FileProgram Bool :=
  .call (.openExclusive path (opens || creates) opens) fun answer => .done answer.isSome

/-- Write to a file: whether everything was written. -/
def writeTo (path bytes : Bytes) (outcome : WriteOutcome) : FileProgram Bool :=
  .call (.write path bytes outcome) fun answer => .done answer.isSome

/-- Read a file. -/
def readFrom (path : Bytes) (permitted : Bool) : FileProgram (Option Bytes) :=
  .call (.read path permitted) .done

/-- Remove a file, or not. -/
def removeFile (path : Bytes) (permitted : Bool) : FileProgram PUnit :=
  .call (.unlink path permitted) fun _ => .done ⟨⟩

/-- Remove a directory, or not. -/
def removeDir (path : Bytes) (permitted : Bool) : FileProgram PUnit :=
  .call (.rmdir path permitted) fun _ => .done ⟨⟩

/-! ## The native run -/

/-- Which of the files are created where no stream can be made of them: `private_output` closes such
a file and leaves it behind. -/
structure Leftovers where
  body : Bool
  metadata : Bool
  deriving DecidableEq, Repr

/-- The outcome of `copy_remaining_body` without what is in the output. -/
structure Copied where
  copied : Bool
  failureCode : ℕ
  received : ℕ
  deriving DecidableEq, Repr

/-- The loop of `copy_remaining_body`, to a file. -/
def copyLoopTo (path : Bytes) (stream : OutputStream) (ending : Ending) (failure : ℕ) :
    List Chunk → ℕ → ℕ → FileProgram Copied
  | [], _, received =>
      match ending with
      | .closed => pure ⟨stream.flushes, failure, received⟩
      | .failed timedOut => pure ⟨false, readFailureCode timedOut, received⟩
  | chunk :: rest, writes, received =>
      if chunk.bytes.length > captureRoom received then pure ⟨false, 12, received⟩
      else do
        let written ← writeTo path chunk.bytes (stream.writes writes)
        if written then
          copyLoopTo path stream ending failure rest (writes + 1) (received + chunk.bytes.length)
        else pure ⟨false, failure, received⟩

/-- Write the prefix and everything that is still to be read to a file. -/
def copyRemainingBodyTo (path : Bytes) (stream : OutputStream) (connection : Connection)
    (failure : ℕ) (bodyPrefix : Bytes) : FileProgram Copied :=
  if bodyPrefix.length > maxCaptureBytes then pure ⟨false, 12, 0⟩
  else if bodyPrefix = [] then
    copyLoopTo path stream connection.ending failure connection.chunks 0 0
  else do
    let written ← writeTo path bodyPrefix (stream.writes 0)
    if written then
      copyLoopTo path stream connection.ending failure connection.chunks 1 bodyPrefix.length
    else pure ⟨false, failure, 0⟩

/-- Write the metadata, with the verdict on the body file. -/
def writeResponseMetadataTo (path : Option Bytes) (file : MetadataFile) (creates : Bool)
    (head : ResponseHead) (receivedLength : ℕ) (bodyPath : Bytes) (bodyReadable : Bool) :
    FileProgram Bool :=
  match path with
  | none => pure true
  | some path => do
      let opened ← privateOutputAt path file.opens creates
      if opened = false then pure false
      else do
        let contents ← readFrom bodyPath bodyReadable
        let text := metadataText head receivedLength (validUtf8File contents = some true)
        let printed ← writeTo path text (if file.prints then .complete else .short 0)
        pure (printed && file.closes)

/-- Deliver a response to a capture. -/
def captureTo (files : CaptureFiles) (leftovers : Leftovers) (bodyPath : Bytes)
    (metadataPath : Option Bytes) (response : Response) : FileProgram ℕ :=
  if response.head.invalidFraming then pure 13
  else if ∃ length ∈ response.head.contentLength, length > maxCaptureBytes then pure 12
  else do
    let opened ← privateOutputAt bodyPath files.bodyOpens leftovers.body
    if opened = false then pure 7
    else do
      let copy ← copyRemainingBodyTo bodyPath files.body response.connection 13 response.bodyPrefix
      let written ← writeResponseMetadataTo metadataPath files.metadata leftovers.metadata
        response.head copy.received bodyPath files.bodyReadable
      pure (deliveryResult true response.head (copy.copied && files.bodyCloses) written
        copy.failureCode copy.received)

/-- What one turn of the loop comes to before anything is delivered: a result, or the response. -/
def turnToDelivery (world : World) (call : Call) (state : LoopState) :
    Turn LoopState (ℕ ⊕ Response) :=
  match oneRequest (world.server state.redirects (state.exchange call)) with
  | .error code =>
      .finished (.inl (exchangeFailure call.bodyOutputPath.isSome state.current.useTls code))
  | .ok response =>
      if canFollow state.request response.head = false then .finished (.inr response)
      else if state.redirects ≥ maxRedirects then .finished (.inl 8)
      else
        match follow world call state response.head with
        | none => .finished (.inl 8)
        | some later => .next later

/-- The native run with a budget of turns. -/
def nativeProgram (fuel : ℕ) (world : World) (leftovers : Leftovers) (call : Call)
    (bodyPath : Bytes) : Option (FileProgram ℕ) :=
  match start world call with
  | .error code => some (pure code)
  | .ok state =>
      (run (turnToDelivery world call) fuel state).map fun (_, last) =>
        match last with
        | .inl code => pure code
        | .inr response => captureTo world.files leftovers bodyPath call.metadataOutputPath response

/-! ## The fetch -/

/-- Which of the calls of a fetch are permitted after the native run. -/
structure Permits where
  bodyReads : Bool
  metadataReads : Bool
  bodyUnlinks : Bool
  metadataUnlinks : Bool
  directoryRemoves : Bool

/-- The removals are permitted. -/
def Permits.Removes (permits : Permits) : Prop :=
  permits.bodyUnlinks = true ∧ permits.metadataUnlinks = true ∧ permits.directoryRemoves = true

/-- What a result and the files that were read are taken for. -/
def takeTogether (result : ℕ) (body metadata : Option Bytes) :
    Except CaptureFailure HTTPBytesResponse :=
  match body, metadata with
  | some body, some metadata => understandBytes result metadata body
  | _, _ =>
      if (result : ℤ) = 0 ∨ (result : ℤ) = 10 then .error .captureIOFailure
      else .error (captureFailure result)

/-- The body is read back only after a complete capture. -/
def readBody (path : Bytes) (permitted : Bool) (result : ℕ) : FileProgram (Option Bytes) :=
  if result = 0 ∨ result = 10 then readFrom path permitted else pure none

/-- Read the files of a native run back and remove what was made. -/
def collect (permits : Permits) (directory : ResponseDirectory) (result : ℕ) :
    FileProgram (Except CaptureFailure HTTPBytesResponse) := do
  let bodyPath := directory.path ++ ascii "/body"
  let metadataPath := directory.path ++ ascii "/metadata"
  let body ← readBody bodyPath permits.bodyReads result
  let metadata ← readFrom metadataPath permits.metadataReads
  let _ ← removeFile bodyPath permits.bodyUnlinks
  let _ ← removeFile metadataPath permits.metadataUnlinks
  let _ ← removeDir directory.path permits.directoryRemoves
  pure (takeTogether result body metadata)

section Program

variable {ρ η : Type} {render : ρ → List η → Option RenderedRequest}

/-- A request that can be rendered, and what its fetch depends on. -/
structure Fetch (render : ρ → List η → Option RenderedRequest) where
  value : ρ
  headers : List η
  wire : RenderedRequest
  rendered : render value headers = some wire
  native : World
  leftovers : Leftovers
  permits : Permits

variable (credentialHeaderNames : List η → List Bytes)

/-- The arguments of the native run. -/
def Fetch.call (fetch : Fetch render) (bodyPath metadataPath : Bytes) : Call where
  host := fetch.wire.host
  port := fetch.wire.port
  requestHeaders := fetch.wire.head
  requestBody := some fetch.wire.body
  requestBodyLength := fetch.wire.bodyLength
  useTls := fetch.wire.useTls
  credentialHeaderNames := some (credentialNames (credentialHeaderNames fetch.headers))
  bodyOutputPath := some bodyPath
  metadataOutputPath := some metadataPath

/-- What a fetch does in a private directory. -/
def fetchProgram (fuel : ℕ) (fetch : Fetch render) (directory : ResponseDirectory) :
    FileProgram (Option (Except CaptureFailure HTTPBytesResponse)) :=
  let bodyPath := directory.path ++ ascii "/body"
  let metadataPath := directory.path ++ ascii "/metadata"
  match nativeProgram fuel fetch.native fetch.leftovers
      (fetch.call credentialHeaderNames bodyPath metadataPath) bodyPath with
  | none => pure none
  | some native => do
      let result ← native
      let response ← collect fetch.permits directory result
      pure (some response)

/-- What a fetch depends on when nobody else is there. Without a directory its name is empty. -/
def Fetch.surroundings (fetch : Fetch render) (directory : Option ResponseDirectory) :
    Surroundings where
  native := fetch.native
  directory := (directory.map ResponseDirectory.path).getD []
  bodyReads := fetch.permits.bodyReads
  metadataReads := fetch.permits.metadataReads

end Program

/-! ## Calls in a private directory -/

/-- A private directory with files of these names and contents, and nothing else. -/
structure Holds (directory : ResponseDirectory) (files : Bytes → Option Bytes) (tree : FileTree) :
    Prop where
  root : tree.lookup directory.path = some .directory
  entry : ∀ name, tree.lookup (directory.entry name) = (files name).map .file

section Calls

variable {directory : ResponseDirectory} {files : Bytes → Option Bytes} {tree : FileTree}
  {name : Bytes}

/-- A call on an entry changes that entry. -/
theorem Holds.perform (holds : Holds directory files tree) {call : FileCall} {later : Option Bytes}
    (path : call.path = directory.entry name) (ready : call.ready tree = true)
    (answered : (call.answer ((files name).map .file)).2 = later.map .file) :
    Holds directory (Function.update files name later) (Capture.perform call tree).2 := by
  constructor
  · rw [lookup_perform, path, if_neg fun both => directory.entry_ne_path name both.1.symm]
    exact holds.root
  · intro other
    rw [lookup_perform, path, holds.entry name, answered]
    by_cases same : other = name
    · rw [if_pos ⟨by rw [same], ready⟩, same, Function.update_self]
    · rw [if_neg fun both => same (ResponseDirectory.entry_injective both.1),
        Function.update_of_ne same, holds.entry other]

/-- A file that does not exist yet is opened if that succeeds, and may be left behind if not. -/
theorem run_privateOutputAt (name : Bytes) (holds : Holds directory files tree)
    (absent : files name = none) (plain : slash ∉ name) (opens creates : Bool) :
    ∃ later, (privateOutputAt (directory.entry name) opens creates).run perform tree =
        (opens, later) ∧
      Holds directory (Function.update files name (if opens || creates then some [] else none))
        later := by
  have ready : (FileCall.openExclusive (directory.entry name) (opens || creates) opens).ready
      tree = true := by
    simp only [FileCall.ready, ResponseDirectory.directoryOf_entry plain, Option.bind_some,
      holds.root, decide_true]
  refine ⟨_, Prod.ext ?_ rfl, holds.perform rfl ready ?_⟩
  · rw [privateOutputAt, Program.run_call]
    simp only [Program.run_done, perform, if_pos ready, FileCall.answer, FileCall.path,
      holds.entry name, absent, Option.map_none, true_and]
    cases opens <;> cases creates <;> rfl
  · rw [absent]
    cases opens <;> cases creates <;> rfl

/-- A write adds to the file what it takes. -/
theorem run_writeTo (holds : Holds directory files tree) {contents : Bytes}
    (there : files name = some contents) (bytes : Bytes) (outcome : WriteOutcome) :
    ∃ later, (writeTo (directory.entry name) bytes outcome).run perform tree =
        ((writeOutput outcome bytes).2, later) ∧
      Holds directory
        (Function.update files name (some (contents ++ (writeOutput outcome bytes).1))) later := by
  refine ⟨_, Prod.ext ?_ rfl, holds.perform rfl rfl ?_⟩
  · rw [writeTo, Program.run_call]
    simp only [Program.run_done, perform, FileCall.ready, if_true, FileCall.answer, FileCall.path,
      holds.entry name, there, Option.map_some]
    cases (writeOutput outcome bytes).2 <;> rfl
  · rw [there]
    rfl

/-- A file is read as it is. -/
theorem run_readFrom (name : Bytes) (holds : Holds directory files tree) (permitted : Bool) :
    ∃ later, (readFrom (directory.entry name) permitted).run perform tree =
        (readFile permitted (files name), later) ∧ Holds directory files later := by
  have same : Holds directory (Function.update files name (files name))
      (perform (.read (directory.entry name) permitted) tree).2 := by
    refine holds.perform rfl rfl ?_
    cases files name <;> rfl
  rw [Function.update_eq_self] at same
  refine ⟨_, Prod.ext ?_ rfl, same⟩
  rw [readFrom, Program.run_call]
  simp only [Program.run_done, perform, FileCall.ready, if_true, FileCall.answer, FileCall.path,
    holds.entry name, readFile]
  cases files name with
  | none => cases permitted <;> rfl
  | some contents => rfl

/-- A file is removed if that is permitted. -/
theorem run_removeFile (name : Bytes) (holds : Holds directory files tree) (permitted : Bool) :
    ∃ later, (removeFile (directory.entry name) permitted).run perform tree = (⟨⟩, later) ∧
      Holds directory (Function.update files name (if permitted then none else files name))
        later := by
  refine ⟨_, rfl, holds.perform rfl rfl ?_⟩
  cases files name with
  | none => cases permitted <;> rfl
  | some contents => cases permitted <;> rfl

/-- An empty directory is removed if that is permitted. -/
theorem vacant_removeDir (holds : Holds directory files tree)
    (empty : ∀ name, files name = none) :
    privateDirectories.Vacant directory
      ((removeDir directory.path true).run perform tree).2 := by
  have nothing : ∀ below, directory.path ++ [slash] <+: below → tree.lookup below = none := by
    rintro below ⟨name, rfl⟩
    have entry := holds.entry name
    rw [empty name, ResponseDirectory.entry] at entry
    rw [List.append_assoc]
    exact entry
  intro place member
  have removed := lookup_perform (.rmdir directory.path true) tree place
  refine removed.trans ?_
  have ready : (FileCall.rmdir directory.path true).ready tree = true :=
    FileTree.isEmpty_iff.mpr nothing
  simp only [FileCall.path, holds.root, FileCall.answer, if_true, ready, and_true]
  split
  · rfl
  · rename_i below
    exact nothing place (member.resolve_left below)

/-! ## The native run in a private directory -/

/-- The outcome of a copy, apart from what was written. -/
def outcomeOf (copy : Copy) : Copied := ⟨copy.copied, copy.failureCode, copy.received⟩

/-- **The loop leaves in the file what it is said to write.** -/
theorem run_copyLoopTo (stream : OutputStream) (ending : Ending) (failure : ℕ)
    (chunks : List Chunk) (writes received : ℕ) {written : Bytes}
    (holds : Holds directory files tree) (there : files name = some written) :
    ∃ later, (copyLoopTo (directory.entry name) stream ending failure chunks writes received).run
        perform tree =
        (outcomeOf (copyLoop true stream ending failure chunks writes received written), later) ∧
      Holds directory (Function.update files name
        (some (copyLoop true stream ending failure chunks writes received written).written))
        later := by
  induction chunks generalizing writes received written files tree with
  | nil =>
      have same : Holds directory (Function.update files name (some written)) tree := by
        rw [← there, Function.update_eq_self]
        exact holds
      cases ending with
      | closed => exact ⟨tree, rfl, same⟩
      | failed timedOut => exact ⟨tree, rfl, same⟩
  | cons chunk rest ih =>
      have same : Holds directory (Function.update files name (some written)) tree := by
        rw [← there, Function.update_eq_self]
        exact holds
      rw [copyLoopTo, copyLoop]
      by_cases exceeds : chunk.bytes.length > captureRoom received
      · rw [if_pos exceeds, if_pos ⟨rfl, exceeds⟩]
        exact ⟨tree, rfl, same⟩
      · rw [if_neg exceeds, if_neg fun both => exceeds both.2, Program.run_bind]
        obtain ⟨later, wrote, holds'⟩ := run_writeTo holds there chunk.bytes (stream.writes writes)
        rw [wrote]
        cases outcome : writeOutput (stream.writes writes) chunk.bytes with
        | mk taken complete =>
            rw [outcome] at holds'
            cases complete with
            | false => exact ⟨later, rfl, holds'⟩
            | true =>
                obtain ⟨last, ran, holds''⟩ := ih (writes + 1) (received + chunk.bytes.length)
                  holds' (Function.update_self ..)
                rw [Function.update_idem] at holds''
                exact ⟨last, ran, holds''⟩

/-- **The body file holds what a copy is said to write.** -/
theorem run_copyRemainingBodyTo (stream : OutputStream) (connection : Connection) (failure : ℕ)
    (bodyPrefix : Bytes) (holds : Holds directory files tree) (there : files name = some []) :
    ∃ later, (copyRemainingBodyTo (directory.entry name) stream connection failure bodyPrefix).run
        perform tree =
        (outcomeOf (copyRemainingBody true stream connection failure bodyPrefix), later) ∧
      Holds directory (Function.update files name
        (some (copyRemainingBody true stream connection failure bodyPrefix).written)) later := by
  unfold copyRemainingBodyTo copyRemainingBody
  by_cases exceeds : bodyPrefix.length > maxCaptureBytes
  · rw [if_pos exceeds, if_pos ⟨rfl, exceeds⟩]
    refine ⟨tree, rfl, ?_⟩
    rw [← there, Function.update_eq_self]
    exact holds
  · have fits : ¬ ((true : Prop) ∧ bodyPrefix.length > maxCaptureBytes) := fun both =>
      exceeds both.2
    rw [if_neg exceeds, if_neg fits]
    split
    · exact run_copyLoopTo stream connection.ending failure connection.chunks 0 0 holds there
    · rw [Program.run_bind]
      obtain ⟨later, wrote, holds'⟩ := run_writeTo holds there bodyPrefix (stream.writes 0)
      rw [wrote]
      cases outcome : writeOutput (stream.writes 0) bodyPrefix with
      | mk taken complete =>
          rw [outcome, List.nil_append] at holds'
          cases complete with
          | false => exact ⟨later, rfl, holds'⟩
          | true =>
              obtain ⟨last, ran, holds''⟩ := run_copyLoopTo stream connection.ending failure
                connection.chunks 1 bodyPrefix.length holds' (Function.update_self ..)
              rw [Function.update_idem] at holds''
              exact ⟨last, ran, holds''⟩

theorem length_metadataText_pos (head : ResponseHead) (received : ℕ) (utf8 : Bool) :
    0 < (metadataText head received utf8).length := by
  rw [metadataText, metadataRows, joinLines_cons, List.length_append, List.length_append, row,
    List.length_append, List.length_cons]
  omega

/-- **The metadata file holds the metadata**, or the write is known to have failed. -/
theorem run_writeResponseMetadataTo (name bodyName : Bytes) (file : MetadataFile) (creates : Bool)
    (head : ResponseHead) (received : ℕ) (bodyReadable : Bool) (holds : Holds directory files tree)
    (absent : files name = none) (plain : slash ∉ name) (distinct : bodyName ≠ name) :
    ∃ later metadata, (writeResponseMetadataTo (some (directory.entry name)) file creates head
        received (directory.entry bodyName) bodyReadable).run perform tree =
        ((writeResponseMetadata (some (directory.entry name)) file head received
          (readFile bodyReadable (files bodyName))).1, later) ∧
      Holds directory (Function.update files name metadata) later ∧
      ((writeResponseMetadata (some (directory.entry name)) file head received
          (readFile bodyReadable (files bodyName))).1 = true →
        metadata = (writeResponseMetadata (some (directory.entry name)) file head received
          (readFile bodyReadable (files bodyName))).2) := by
  obtain ⟨opened, didOpen, holds'⟩ :=
    run_privateOutputAt name holds absent plain file.opens creates
  rw [writeResponseMetadataTo, writeResponseMetadata, Program.run_bind, didOpen]
  dsimp only
  cases opens : file.opens with
  | false =>
      rw [opens] at holds'
      exact ⟨opened, _, rfl, holds', fun absurdity => by cases absurdity⟩
  | true =>
      rw [opens, Bool.true_or, if_pos rfl] at holds'
      obtain ⟨reading, read, holds''⟩ := run_readFrom bodyName holds' bodyReadable
      rw [Function.update_of_ne distinct] at read
      rw [if_neg Bool.false_ne_true.symm, if_pos rfl, Program.run_bind, read, Program.run_bind]
      obtain ⟨last, wrote, written⟩ := run_writeTo holds'' (Function.update_self ..)
        (metadataText head received
          (validUtf8File (readFile bodyReadable (files bodyName)) = some true))
        (if file.prints then .complete else .short 0)
      rw [Function.update_idem, List.nil_append] at written
      refine ⟨last, _, ?_, written, fun complete => ?_⟩
      · rw [wrote]
        cases prints : file.prints with
        | true => rfl
        | false =>
            have short : decide ((metadataText head received
                (validUtf8File (readFile bodyReadable (files bodyName)) = some true)).length ≤ 0) =
                  false :=
              decide_eq_false (Nat.not_le_of_gt (length_metadataText_pos _ _ _))
            simp only [Bool.false_eq_true, if_false, writeOutput, short, Bool.false_and]
            rfl
      · rw [Bool.and_eq_true] at complete
        rw [if_pos complete.1]
        rfl

end Calls

/-- The names of the two files. -/
def bodyName : Bytes := ascii "body"

@[inherit_doc bodyName] def metadataName : Bytes := ascii "metadata"

theorem bodyPath_eq (directory : ResponseDirectory) :
    directory.path ++ ascii "/body" = directory.entry bodyName := rfl

theorem metadataPath_eq (directory : ResponseDirectory) :
    directory.path ++ ascii "/metadata" = directory.entry metadataName := rfl

/-- The files hold what a native run is said to leave behind, or an empty body file of which no
stream was made. Of a run that failed it is only known which files there may be. -/
structure Left (result : ℕ) (delivery : Delivery) (files : Bytes → Option Bytes) : Prop where
  body : files bodyName = delivery.bodyFile ∨ (result = 7 ∧ files bodyName = some [])
  metadata : result = 0 ∨ result = 10 → files metadataName = delivery.metadataFile
  others : ∀ name, name ≠ bodyName → name ≠ metadataName → files name = none

theorem left_nothing (result : ℕ) : Left result .nothing fun _ => none :=
  ⟨Or.inl rfl, fun _ => rfl, fun _ _ _ => rfl⟩

/-- A complete capture wrote its metadata. -/
theorem metadataWritten_of_complete {head : ResponseHead} {copied metadataWritten : Bool}
    {copyFailure received : ℕ}
    (complete : deliveryResult true head copied metadataWritten copyFailure received = 0 ∨
      deliveryResult true head copied metadataWritten copyFailure received = 10) :
    metadataWritten = true := by
  by_contra failed
  rw [Bool.not_eq_true] at failed
  unfold deliveryResult at complete
  rw [if_pos (Or.inr failed)] at complete
  split at complete <;> omega

section Native

variable {directory : ResponseDirectory} {tree : FileTree} {world : World} {call : Call}

/-- **A delivery leaves in the directory what it is said to leave behind.** -/
theorem run_captureTo (world : World) (leftovers : Leftovers) (response : Response)
    (metadataPath : call.metadataOutputPath = some (directory.entry metadataName))
    (holds : Holds directory (fun _ => none) tree) :
    ∃ later files, (captureTo world.files leftovers (directory.entry bodyName)
        call.metadataOutputPath response).run perform tree =
          ((deliverToFiles world call response).1, later) ∧
      Holds directory files later ∧
      Left (deliverToFiles world call response).1 (deliverToFiles world call response).2 files := by
  unfold captureTo deliverToFiles
  split
  · exact ⟨tree, _, rfl, holds, left_nothing 13⟩
  · split
    · exact ⟨tree, _, rfl, holds, left_nothing 12⟩
    · obtain ⟨opened, didOpen, afterOpen⟩ :=
        run_privateOutputAt bodyName holds rfl (by decide) world.files.bodyOpens leftovers.body
      rw [Program.run_bind, didOpen]
      dsimp only
      cases opens : world.files.bodyOpens with
      | false =>
          rw [opens, Bool.false_or] at afterOpen
          rw [if_pos rfl, if_pos rfl]
          refine ⟨opened, _, rfl, afterOpen, ?_, fun _ => ?_, ?_⟩
          · rw [Function.update_self]
            split
            · exact Or.inr ⟨rfl, rfl⟩
            · exact Or.inl rfl
          · rw [Function.update_of_ne (by decide)]
            rfl
          · intro name notBody _
            rw [Function.update_of_ne notBody]
      | true =>
          rw [opens, Bool.true_or, if_pos rfl] at afterOpen
          rw [if_neg Bool.false_ne_true.symm, if_neg Bool.false_ne_true.symm]
          obtain ⟨copied, copies, afterCopy⟩ := run_copyRemainingBodyTo world.files.body
            response.connection 13 response.bodyPrefix afterOpen (Function.update_self ..)
          rw [Function.update_idem] at afterCopy
          rw [Program.run_bind, copies, metadataPath, Program.run_bind]
          obtain ⟨last, metadata, ran, afterMetadata, text⟩ := run_writeResponseMetadataTo
            metadataName bodyName world.files.metadata leftovers.metadata response.head
            (copyRemainingBody true world.files.body response.connection 13
              response.bodyPrefix).received
            world.files.bodyReadable afterCopy (Function.update_of_ne (by decide) _ _) (by decide)
            (by decide)
          rw [Function.update_self] at ran text
          refine ⟨last, _, ?_, afterMetadata, ?_, fun complete => ?_, ?_⟩
          · dsimp only [outcomeOf]
            rw [ran]
            rfl
          · left
            rw [Function.update_of_ne (by decide), Function.update_self]
          · rw [Function.update_self]
            exact text (metadataWritten_of_complete complete)
          · intro name notBody notMetadata
            rw [Function.update_of_ne notMetadata, Function.update_of_ne notBody]

/-- What the loop comes to, and what it leaves behind. -/
def settle (world : World) (call : Call) : ℕ ⊕ Response → ℕ × Delivery
  | .inl code => (code, .nothing)
  | .inr response => deliver world call response

theorem turn_eq_conclude (state : LoopState) :
    turn world call state = (turnToDelivery world call state).conclude (settle world call) := by
  unfold turn turnToDelivery
  cases oneRequest (world.server state.redirects (state.exchange call)) with
  | error code => rfl
  | ok response =>
      dsimp only
      split
      · rfl
      · split
        · rfl
        · cases follow world call state response.head with
          | none => rfl
          | some later => rfl

/-- **A native run leaves in the directory what it is said to leave behind.** -/
theorem run_nativeProgram {fuel : ℕ} (leftovers : Leftovers) {outcome : Outcome}
    (bodyPath : call.bodyOutputPath = some (directory.entry bodyName))
    (metadataPath : call.metadataOutputPath = some (directory.entry metadataName))
    (ran : sendRequest fuel world call = some outcome)
    (holds : Holds directory (fun _ => none) tree) :
    ∃ program later files,
      nativeProgram fuel world leftovers call (directory.entry bodyName) = some program ∧
        program.run perform tree = (outcome.result, later) ∧ Holds directory files later ∧
        Left outcome.result outcome.delivery files := by
  unfold sendRequest at ran
  unfold nativeProgram
  cases began : start world call with
  | error code =>
      simp only [began, Option.some.injEq] at ran
      subst ran
      exact ⟨_, tree, _, rfl, rfl, holds, left_nothing code⟩
  | ok state =>
      simp only [began, run_conclude turn_eq_conclude, Option.map_map, Option.map_eq_some_iff,
        Prod.exists, Function.comp_apply] at ran
      obtain ⟨visits, last, looped, rfl⟩ := ran
      dsimp only
      rw [looped, Option.map_some]
      cases last with
      | inl code => exact ⟨_, tree, _, rfl, rfl, holds, left_nothing code⟩
      | inr response =>
          have files : deliver world call response = deliverToFiles world call response := by
            rw [deliver, bodyPath]
          obtain ⟨later, written, delivered, after, left⟩ :=
            run_captureTo world leftovers response metadataPath holds
          refine ⟨_, later, written, rfl, ?_, after, ?_⟩
          · rw [settle, files]
            exact delivered
          · rw [settle, files]
            exact left

theorem nativeProgram_eq_none {fuel : ℕ} {leftovers : Leftovers} {bodyPath : Bytes}
    (endless : sendRequest fuel world call = none) :
    nativeProgram fuel world leftovers call bodyPath = none := by
  unfold sendRequest at endless
  unfold nativeProgram
  cases began : start world call with
  | error code =>
      rw [began] at endless
      cases endless
  | ok state =>
      simp only [began, run_conclude turn_eq_conclude, Option.map_map,
        Option.map_eq_none_iff] at endless
      dsimp only
      rw [endless, Option.map_none]

end Native

/-! ## Where the calls are made -/

section Staying

variable {inside closing : FileCall → Prop} {path : Bytes}

theorem staying_writeTo
    (allowed : ∀ bytes outcome, inside (.write path bytes outcome) ∧
      ¬ closing (.write path bytes outcome)) (bytes : Bytes) (outcome : WriteOutcome) :
    (writeTo path bytes outcome).Staying inside closing :=
  ⟨(allowed bytes outcome).1, (allowed bytes outcome).2, fun _ => trivial⟩

/-- **A copy makes no calls but writes to its file.** -/
theorem staying_copyLoopTo
    (allowed : ∀ bytes outcome, inside (.write path bytes outcome) ∧
      ¬ closing (.write path bytes outcome)) (stream : OutputStream) (ending : Ending)
    (failure : ℕ) (chunks : List Chunk) (writes received : ℕ) :
    (copyLoopTo path stream ending failure chunks writes received).Staying inside closing := by
  induction chunks generalizing writes received with
  | nil =>
      cases ending with
      | closed => trivial
      | failed timedOut => trivial
  | cons chunk rest ih =>
      rw [copyLoopTo]
      split
      · trivial
      · refine (staying_writeTo allowed _ _).bind fun written => ?_
        cases written with
        | false => trivial
        | true => exact ih _ _

theorem staying_copyRemainingBodyTo
    (allowed : ∀ bytes outcome, inside (.write path bytes outcome) ∧
      ¬ closing (.write path bytes outcome)) (stream : OutputStream) (connection : Connection)
    (failure : ℕ) (bodyPrefix : Bytes) :
    (copyRemainingBodyTo path stream connection failure bodyPrefix).Staying inside closing := by
  unfold copyRemainingBodyTo
  split
  · trivial
  · split
    · exact staying_copyLoopTo allowed _ _ _ _ _ _
    · refine (staying_writeTo allowed _ _).bind fun written => ?_
      cases written with
      | false => trivial
      | true => exact staying_copyLoopTo allowed _ _ _ _ _ _

end Staying

/-! ## Nothing is overwritten -/

/-- A call that leaves the node of a path as it is. -/
def Spares (place : Bytes) (call : FileCall) : Prop :=
  call.path ≠ place ∨ ∃ path permitted, call = .read path permitted

/-- The calls of a program leave the node of a path as it is. -/
abbrev Sparing {τ : Type} (place : Bytes) (program : FileProgram τ) : Prop :=
  program.Staying (Spares place) fun _ => False

section Sparing

variable {place path bodyPath : Bytes} {tree : FileTree}

theorem lookup_of_spares {call : FileCall} (spares : Spares place call) (tree : FileTree) :
    (perform call tree).2.lookup place = tree.lookup place := by
  rw [lookup_perform]
  split
  · rename_i here
    rcases spares with elsewhere | ⟨path, permitted, rfl⟩
    · exact absurd here.1.symm elsewhere
    · obtain ⟨rfl, _⟩ := here
      unfold FileCall.answer
      dsimp only
      split <;> rfl
  · rfl

/-- **A program that spares a path leaves its node as it is.** -/
theorem lookup_of_sparing {τ : Type} {program : FileProgram τ} (spares : Sparing place program)
    (tree : FileTree) : (program.run perform tree).2.lookup place = tree.lookup place := by
  induction program generalizing tree with
  | done result => rfl
  | call request next ih =>
      rw [Program.run_call, ih _ (spares.2.2 _), lookup_of_spares spares.1]

theorem sparing_write (elsewhere : path ≠ place) (bytes : Bytes) (outcome : WriteOutcome) :
    Spares place (.write path bytes outcome) ∧ ¬ False :=
  ⟨Or.inl elsewhere, id⟩

/-- **A file that exists is not opened**, and opening leaves it as it is. -/
theorem run_privateOutputAt_existing (path : Bytes) (opens creates : Bool)
    (there : tree.lookup place ≠ none) :
    ((privateOutputAt path opens creates).run perform tree).2.lookup place = tree.lookup place ∧
      (((privateOutputAt path opens creates).run perform tree).1 = true → path ≠ place) := by
  by_cases here : path = place
  · subst here
    have refused : (FileCall.openExclusive path (opens || creates) opens).answer
        (tree.lookup path) = (none, tree.lookup path) := if_neg fun both => there both.1
    constructor
    · rw [privateOutputAt, Program.run_call, Program.run_done, lookup_perform]
      split
      · exact congrArg Prod.snd refused
      · rfl
    · intro opened
      rw [privateOutputAt, Program.run_call, Program.run_done, perform] at opened
      split at opened
      · simp only [FileCall.path, refused, Option.isSome_none, Bool.false_eq_true] at opened
      · cases opened
  · have spares : Spares place (.openExclusive path (opens || creates) opens) := Or.inl here
    exact ⟨lookup_of_spares spares tree, fun _ => here⟩

theorem lookup_writeResponseMetadataTo (metadataPath : Option Bytes) (file : MetadataFile)
    (creates : Bool) (head : ResponseHead) (received : ℕ) (bodyReadable : Bool)
    (there : tree.lookup place ≠ none) :
    ((writeResponseMetadataTo metadataPath file creates head received bodyPath bodyReadable).run
      perform tree).2.lookup place = tree.lookup place := by
  unfold writeResponseMetadataTo
  cases metadataPath with
  | none => rfl
  | some path =>
      obtain ⟨kept, opens⟩ := run_privateOutputAt_existing path file.opens creates there
      dsimp only
      rw [Program.run_bind]
      generalize (privateOutputAt path file.opens creates).run perform tree = opening at kept opens
      obtain ⟨opened, later⟩ := opening
      dsimp only at kept opens ⊢
      cases opened with
      | false => exact kept
      | true =>
          have reads : Sparing place (readFrom bodyPath bodyReadable) :=
            ⟨Or.inr ⟨_, _, rfl⟩, id, fun _ => trivial⟩
          rw [if_neg Bool.false_ne_true.symm, Program.run_bind, Program.run_bind]
          refine (lookup_of_sparing (staying_writeTo (sparing_write (opens rfl)) _ _) _).trans ?_
          exact (lookup_of_sparing reads later).trans kept

theorem lookup_captureTo (files : CaptureFiles) (leftovers : Leftovers)
    (metadataPath : Option Bytes) (response : Response) (there : tree.lookup place ≠ none) :
    ((captureTo files leftovers bodyPath metadataPath response).run perform tree).2.lookup place =
      tree.lookup place := by
  unfold captureTo
  split
  · rfl
  · split
    · rfl
    · obtain ⟨kept, opens⟩ :=
        run_privateOutputAt_existing bodyPath files.bodyOpens leftovers.body there
      rw [Program.run_bind]
      generalize (privateOutputAt bodyPath files.bodyOpens leftovers.body).run perform tree =
        opening
        at kept opens
      obtain ⟨opened, later⟩ := opening
      dsimp only at kept opens ⊢
      cases opened with
      | false => exact kept
      | true =>
          have copied := lookup_of_sparing (staying_copyRemainingBodyTo
            (sparing_write (opens rfl)) files.body response.connection 13 response.bodyPrefix) later
          rw [if_neg Bool.false_ne_true.symm, Program.run_bind, Program.run_bind]
          refine (lookup_writeResponseMetadataTo _ _ _ _ _ _ ?_).trans (copied.trans kept)
          rw [copied, kept]
          exact there

/-- Metadata that were written have a file of their own. -/
theorem free_of_metadata {path : Bytes} {file : MetadataFile} {creates : Bool} {head : ResponseHead}
    {received : ℕ} {bodyReadable : Bool}
    (written : ((writeResponseMetadataTo (some path) file creates head received bodyPath
      bodyReadable).run perform tree).1 = true) : tree.lookup path = none := by
  by_contra there
  obtain ⟨_, opens⟩ := run_privateOutputAt_existing path file.opens creates there
  rw [writeResponseMetadataTo, Program.run_bind] at written
  generalize (privateOutputAt path file.opens creates).run perform tree = opening at written opens
  obtain ⟨opened, later⟩ := opening
  cases opened with
  | false => cases written
  | true => exact opens rfl rfl

/-- **A capture that is complete has made its files.** -/
theorem free_of_captureTo {files : CaptureFiles} {leftovers : Leftovers}
    {metadataPath : Option Bytes} {response : Response}
    (complete :
      ((captureTo files leftovers bodyPath metadataPath response).run perform tree).1 = 0 ∨
      ((captureTo files leftovers bodyPath metadataPath response).run perform tree).1 = 10) :
    tree.lookup bodyPath = none ∧ ∀ path, metadataPath = some path → tree.lookup path = none := by
  unfold captureTo at complete
  split at complete
  · rcases complete with absurdity | absurdity <;> cases absurdity
  · split at complete
    · rcases complete with absurdity | absurdity <;> cases absurdity
    · have opening : ∀ place, tree.lookup place ≠ none → _ ∧ _ := fun place there =>
        run_privateOutputAt_existing bodyPath files.bodyOpens leftovers.body there
      rw [Program.run_bind] at complete
      generalize (privateOutputAt bodyPath files.bodyOpens leftovers.body).run perform tree =
        outcome
        at complete opening
      obtain ⟨opened, later⟩ := outcome
      cases opened with
      | false => rcases complete with absurdity | absurdity <;> cases absurdity
      | true =>
          refine ⟨by_contra fun there => (opening bodyPath there).2 rfl rfl, ?_⟩
          rintro path rfl
          by_contra there
          obtain ⟨kept, opens⟩ := opening path there
          dsimp only at kept complete
          rw [if_neg Bool.false_ne_true.symm, Program.run_bind, Program.run_bind] at complete
          have free := free_of_metadata (metadataWritten_of_complete complete)
          rw [lookup_of_sparing (staying_copyRemainingBodyTo (sparing_write (opens rfl)) _ _ _ _),
            kept] at free
          exact there free

/-- A result that is not that of a delivery is a failure. -/
theorem turnToDelivery_code {world : World} {call : Call} {state : LoopState} {code : ℕ}
    (captures : call.bodyOutputPath = some bodyPath)
    (finished : turnToDelivery world call state = .finished (.inl code)) :
    code ≠ 0 ∧ code ≠ 10 := by
  unfold turnToDelivery at finished
  cases answered : oneRequest (world.server state.redirects (state.exchange call)) with
  | error failure =>
      have codes := oneRequest_error answered
      simp only [answered, captures, exchangeFailure, Option.isSome_some, Bool.true_eq_false,
        false_and, if_false, Turn.finished.injEq, Sum.inl.injEq] at finished
      subst finished
      simp only [List.mem_cons, List.not_mem_nil, or_false] at codes
      omega
  | ok response =>
      simp only [answered] at finished
      split at finished
      · cases finished
      · split at finished
        · cases finished
          decide
        · split at finished
          · cases finished
            decide
          · cases finished

/-- **A capture overwrites nothing.** Whatever is in the tree, and whatever paths a call gives for
its files, the native run leaves every path that has a node as it is, links included. If it gives a
complete capture, its files did not exist before. -/
theorem capture_overwrites_nothing {fuel : ℕ} {world : World} {leftovers : Leftovers} {call : Call}
    {program : FileProgram ℕ} (captures : call.bodyOutputPath = some bodyPath)
    (found : nativeProgram fuel world leftovers call bodyPath = some program) (tree : FileTree) :
    (∀ place, tree.lookup place ≠ none →
      (program.run perform tree).2.lookup place = tree.lookup place) ∧
    ((program.run perform tree).1 = 0 ∨ (program.run perform tree).1 = 10 →
      tree.lookup bodyPath = none ∧
        ∀ path, call.metadataOutputPath = some path → tree.lookup path = none) := by
  unfold nativeProgram at found
  cases began : start world call with
  | error code =>
      rw [began] at found
      cases found
      refine ⟨fun _ _ => rfl, fun complete => ?_⟩
      have codes := start_error began
      have result : ((pure code : FileProgram ℕ).run perform tree).1 = code := rfl
      omega
  | ok state =>
      rw [began] at found
      obtain ⟨⟨visits, last⟩, ran, same⟩ := Option.map_eq_some_iff.mp found
      subst same
      cases last with
      | inl code =>
          refine ⟨fun _ _ => rfl, fun complete => ?_⟩
          obtain ⟨visit, _, finished⟩ := turn_of_last ran
          obtain ⟨notZero, notTen⟩ := turnToDelivery_code captures finished
          rcases complete with zero | ten
          · exact absurd zero notZero
          · exact absurd ten notTen
      | inr response =>
          exact ⟨fun place there => lookup_captureTo world.files _ _ response there,
            free_of_captureTo⟩

end Sparing

/-- A GET whose response is captured. -/
def savedCall : Call := { authorizedCall with bodyOutputPath := some (ascii "/b") }

/-- Its native run. -/
def savedProgram : FileProgram ℕ :=
  (nativeProgram 9 redirectingOnce ⟨false, false⟩ savedCall (ascii "/b")).get (by decide +kernel)

/-- A root directory with a special file in the place of the body. -/
def occupiedTree : FileTree := ⟨[(ascii "/b", .special none), ([], .directory)]⟩

theorem capture_overwrites_nothing_existing :
    (FileCall.openExclusive (ascii "/b") true true).ready occupiedTree = true ∧
      (savedProgram.run perform occupiedTree).2.lookup (ascii "/b") = some (.special none) := by
  have found : nativeProgram 9 redirectingOnce ⟨false, false⟩ savedCall (ascii "/b") =
      some savedProgram := (Option.some_get _).symm
  exact ⟨by decide, (capture_overwrites_nothing rfl found occupiedTree).1 (ascii "/b") (by decide)⟩

end IcuTransport.Client
