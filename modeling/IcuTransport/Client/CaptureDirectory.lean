import IcuTransport.Client.CaptureProgram

/-!
# Fetches at the same time

A fetch makes its calls in a private directory of its own. Alone there it does what
`fetchBytesResponse` says (`fetchProgram_alone`), and it leaves nothing behind if its removals are
permitted. Its calls stay in the directory (`confined_fetchProgram`). So fetches that run at the
same time do not disturb each other and leave nothing behind, in any order of their calls and
whatever others do elsewhere in the tree (`fetches_isolated`, `fetches_leave_nothing`).

The fetches are separate processes: `icu_response_directory` gives back one static array, so that a
process has one directory at a time. A request that cannot be rendered fails before anything is made
and is left out here.
-/

set_option autoImplicit false

namespace IcuTransport.Client

open Ascii TextScan TurnLoop Wire Redirect Capture Regions

/-! ## A fetch alone -/

section Alone

variable {directory : ResponseDirectory}

/-- A directory that was just made is empty. -/
theorem holds_make (directory : ResponseDirectory) :
    Holds directory (fun _ => none)
      (privateDirectories.make directory privateDirectories.blank) := by
  constructor
  · exact (FileTree.lookup_assign ..).trans (if_pos rfl)
  · intro name
    exact (FileTree.lookup_assign ..).trans (if_neg (directory.entry_ne_path name))

theorem concludeFetch_eq (surroundings : Surroundings) (outcome : Outcome) :
    concludeFetch surroundings outcome =
      takeTogether outcome.result
        (if (outcome.result : ℤ) = 0 ∨ (outcome.result : ℤ) = 10 then
          readFile surroundings.bodyReads outcome.delivery.bodyFile else none)
        (readFile surroundings.metadataReads outcome.delivery.metadataFile) := rfl

/-- **What is collected** is what the result and the files are taken for, and nothing is left when
the removals are permitted. -/
theorem run_collect {tree : FileTree} {files : Bytes → Option Bytes} {outcome : Outcome}
    (permits : Permits) (holds : Holds directory files tree)
    (left : Left outcome.result outcome.delivery files) (surroundings : Surroundings)
    (bodyReads : surroundings.bodyReads = permits.bodyReads)
    (metadataReads : surroundings.metadataReads = permits.metadataReads) :
    ((collect permits directory outcome.result).run perform tree).1 =
        concludeFetch surroundings outcome ∧
      (permits.Removes → privateDirectories.Vacant directory
        ((collect permits directory outcome.result).run perform tree).2) := by
  have body : ∃ later, (readBody (directory.entry bodyName) permits.bodyReads outcome.result).run
        perform tree =
        (if outcome.result = 0 ∨ outcome.result = 10 then
          readFile permits.bodyReads outcome.delivery.bodyFile else none, later) ∧
      Holds directory files later := by
    unfold readBody
    split
    · rename_i complete
      have kept : files bodyName = outcome.delivery.bodyFile :=
        left.body.resolve_right fun empty => by omega
      rw [← kept]
      exact run_readFrom bodyName holds permits.bodyReads
    · exact ⟨tree, rfl, holds⟩
  obtain ⟨first, bodyRead, holdsFirst⟩ := body
  obtain ⟨second, metadataRead, holdsSecond⟩ :=
    run_readFrom metadataName holdsFirst permits.metadataReads
  obtain ⟨third, unlinkBody, holdsThird⟩ :=
    run_removeFile bodyName holdsSecond permits.bodyUnlinks
  obtain ⟨fourth, unlinkMetadata, holdsFourth⟩ :=
    run_removeFile metadataName holdsThird permits.metadataUnlinks
  have whole : (collect permits directory outcome.result).run perform tree =
      (takeTogether outcome.result
        (if outcome.result = 0 ∨ outcome.result = 10 then
          readFile permits.bodyReads outcome.delivery.bodyFile else none)
        (readFile permits.metadataReads (files metadataName)),
        ((removeDir directory.path permits.directoryRemoves).run perform fourth).2) := by
    rw [collect, bodyPath_eq, metadataPath_eq, Program.run_bind, bodyRead, Program.run_bind,
      metadataRead, Program.run_bind, unlinkBody, Program.run_bind, unlinkMetadata,
      Program.run_bind]
    rfl
  rw [whole]
  constructor
  · rw [concludeFetch_eq, bodyReads, metadataReads]
    by_cases complete : outcome.result = 0 ∨ outcome.result = 10
    · have casts : (outcome.result : ℤ) = 0 ∨ (outcome.result : ℤ) = 10 := by omega
      rw [left.metadata complete, if_pos complete, if_pos casts]
    · have casts : ¬ ((outcome.result : ℤ) = 0 ∨ (outcome.result : ℤ) = 10) := by omega
      rw [if_neg complete, if_neg casts]
      rfl
  · rintro ⟨removesBody, removesMetadata, removesDirectory⟩
    rw [removesDirectory]
    refine vacant_removeDir holdsFourth fun name => ?_
    rw [removesBody, removesMetadata, if_pos rfl, if_pos rfl]
    by_cases isMetadata : name = metadataName
    · rw [isMetadata, Function.update_self]
    · rw [Function.update_of_ne isMetadata]
      by_cases isBody : name = bodyName
      · rw [isBody, Function.update_self]
      · rw [Function.update_of_ne isBody, left.others name isBody isMetadata]

variable {ρ η : Type} {render : ρ → List η → Option RenderedRequest}
  (credentialHeaderNames : List η → List Bytes)

/-- **Alone in a directory of its own** a fetch gives what `fetchBytesResponse` says. -/
theorem fetchProgram_alone (fuel : ℕ) (fetch : Fetch render) (directory : ResponseDirectory) :
    (privateDirectories.alone directory
        (fetchProgram credentialHeaderNames fuel fetch directory)).1 =
      fetchBytesResponse render credentialHeaderNames fuel (fetch.surroundings (some directory))
        fetch.value fetch.headers ∧
    (9 ≤ fuel → fetch.permits.Removes → privateDirectories.Vacant directory
      (privateDirectories.alone directory
        (fetchProgram credentialHeaderNames fuel fetch directory)).2) := by
  have made : (fetch.surroundings (some directory)).directory ≠ [] := by
    intro empty
    have length := directory.length_path
    rw [show directory.path = [] from empty] at length
    cases length
  unfold fetchBytesResponse
  rw [fetch.rendered]
  dsimp only
  rw [if_neg made]
  unfold Territory.alone fetchProgram
  rw [bodyPath_eq, metadataPath_eq]
  dsimp only
  cases ran : sendRequest fuel fetch.native (fetch.call credentialHeaderNames
      (directory.entry bodyName) (directory.entry metadataName)) with
  | none =>
      have native : nativeFetch credentialHeaderNames fuel (fetch.surroundings (some directory))
          fetch.wire fetch.headers = none := ran
      rw [native, nativeProgram_eq_none ran]
      refine ⟨rfl, fun enough => ?_⟩
      obtain ⟨outcome, returns⟩ := sendRequest_returns fetch.native (fetch.call
        credentialHeaderNames (directory.entry bodyName) (directory.entry metadataName))
      cases ran.symm.trans (returns fuel enough)
  | some outcome =>
      have native : nativeFetch credentialHeaderNames fuel (fetch.surroundings (some directory))
          fetch.wire fetch.headers = some outcome := ran
      obtain ⟨program, later, files, found, did, holds, left⟩ :=
        run_nativeProgram fetch.leftovers rfl rfl ran (holds_make directory)
      obtain ⟨response, vacant⟩ := run_collect fetch.permits holds left
        (fetch.surroundings (some directory)) rfl rfl
      rw [native, found]
      dsimp only
      have whole :
        (program >>= fun result => collect fetch.permits directory result >>= fun response =>
          pure (some response)).run perform
            (privateDirectories.make directory privateDirectories.blank) =
          (some ((collect fetch.permits directory outcome.result).run perform later).1,
            ((collect fetch.permits directory outcome.result).run perform later).2) := by
        rw [Program.run_bind, did, Program.run_bind]
        rfl
      have performs : privateDirectories.perform = perform := rfl
      rw [performs, whole, response]
      exact ⟨rfl, fun _ => vacant⟩

end Alone

/-! ## A fetch stays in its directory -/

/-- The calls of a program are on entries of a private directory. -/
abbrev Stays {τ : Type} (directory : ResponseDirectory) (program : FileProgram τ) : Prop :=
  program.Staying (privateDirectories.inside directory) privateDirectories.closing

section Stays

variable {directory : ResponseDirectory} {name other : Bytes}

/-- A call on an entry stays. -/
theorem stays_call {τ : Type} {call : FileCall} {next : Option Bytes → FileProgram τ}
    (path : call.path = directory.entry name) (plain : slash ∉ name)
    (notRmdir : ∀ path permitted, call ≠ .rmdir path permitted)
    (after : ∀ answer, Stays directory (next answer)) : Stays directory (.call call next) := by
  refine ⟨Or.inr ⟨⟨name, plain, path⟩, notRmdir⟩, ?_, after⟩
  rintro ⟨path', permitted, same⟩
  exact notRmdir path' permitted same

theorem stays_privateOutputAt (plain : slash ∉ name) (opens creates : Bool) :
    Stays directory (privateOutputAt (directory.entry name) opens creates) :=
  stays_call rfl plain (fun _ _ => FileCall.noConfusion) fun _ => trivial

theorem stays_write (plain : slash ∉ name) (bytes : Bytes) (outcome : WriteOutcome) :
    privateDirectories.inside directory (.write (directory.entry name) bytes outcome) ∧
      ¬ privateDirectories.closing (.write (directory.entry name) bytes outcome) :=
  ⟨Or.inr ⟨⟨name, plain, rfl⟩, fun _ _ => FileCall.noConfusion⟩, fun ⟨_, _, same⟩ =>
    FileCall.noConfusion same⟩

theorem stays_readFrom (plain : slash ∉ name) (permitted : Bool) :
    Stays directory (readFrom (directory.entry name) permitted) :=
  stays_call rfl plain (fun _ _ => FileCall.noConfusion) fun _ => trivial

theorem stays_removeFile (plain : slash ∉ name) (permitted : Bool) :
    Stays directory (removeFile (directory.entry name) permitted) :=
  stays_call rfl plain (fun _ _ => FileCall.noConfusion) fun _ => trivial

theorem stays_writeResponseMetadataTo (plain : slash ∉ name) (plain' : slash ∉ other)
    (file : MetadataFile) (creates : Bool) (head : ResponseHead) (received : ℕ)
    (bodyReadable : Bool) :
    Stays directory (writeResponseMetadataTo (some (directory.entry name)) file creates head
      received (directory.entry other) bodyReadable) := by
  unfold writeResponseMetadataTo
  refine (stays_privateOutputAt plain _ _).bind fun opened => ?_
  split
  · trivial
  · exact (stays_readFrom plain' _).bind fun contents =>
      (staying_writeTo (stays_write plain) _ _).bind fun printed => trivial

theorem stays_captureTo (files : CaptureFiles) (leftovers : Leftovers) (response : Response) :
    Stays directory (captureTo files leftovers (directory.entry bodyName)
      (some (directory.entry metadataName)) response) := by
  unfold captureTo
  split
  · trivial
  · split
    · trivial
    · refine (stays_privateOutputAt (by decide) _ _).bind fun opened => ?_
      split
      · trivial
      · exact (staying_copyRemainingBodyTo (stays_write (by decide)) _ _ _ _).bind fun copy =>
          (stays_writeResponseMetadataTo (by decide) (by decide) _ _ _ _ _).bind fun written =>
            trivial

theorem stays_nativeProgram {fuel : ℕ} {world : World} {leftovers : Leftovers} {call : Call}
    {program : FileProgram ℕ}
    (metadataPath : call.metadataOutputPath = some (directory.entry metadataName))
    (found : nativeProgram fuel world leftovers call (directory.entry bodyName) = some program) :
    Stays directory program := by
  unfold nativeProgram at found
  cases began : start world call with
  | error code =>
      rw [began] at found
      cases found
      trivial
  | ok state =>
      rw [began] at found
      obtain ⟨⟨visits, last⟩, _, same⟩ := Option.map_eq_some_iff.mp found
      subst same
      cases last with
      | inl code => trivial
      | inr response =>
          dsimp only
          rw [metadataPath]
          exact stays_captureTo world.files leftovers response

theorem confined_collect (permits : Permits) (result : ℕ) :
    (collect permits directory result).Confined (privateDirectories.inside directory)
      privateDirectories.closing := by
  have body : Stays directory (readBody (directory.entry bodyName) permits.bodyReads result) := by
    unfold readBody
    split
    · exact stays_readFrom (by decide) _
    · trivial
  unfold collect
  rw [bodyPath_eq, metadataPath_eq]
  refine body.confined fun body => (stays_readFrom (by decide) _).confined fun metadata => ?_
  refine (stays_removeFile (by decide) _).confined fun _ => ?_
  refine (stays_removeFile (by decide) _).confined fun _ => ?_
  exact ⟨Or.inl ⟨_, rfl⟩, fun _ _ => id, fun _ => trivial⟩

/-- **A fetch is confined to its directory**, and removes it last. -/
theorem confined_fetchProgram {ρ η : Type} {render : ρ → List η → Option RenderedRequest}
    (credentialHeaderNames : List η → List Bytes) (fuel : ℕ) (fetch : Fetch render)
    (directory : ResponseDirectory) :
    (fetchProgram credentialHeaderNames fuel fetch directory).Confined
      (privateDirectories.inside directory) privateDirectories.closing := by
  unfold fetchProgram
  rw [bodyPath_eq, metadataPath_eq]
  dsimp only
  split
  · trivial
  · rename_i native found
    exact (stays_nativeProgram rfl found).confined fun result =>
      (confined_collect fetch.permits result).map some

end Stays

/-! ## Fetches at the same time -/

section Together

variable {ρ η ι : Type} {render : ρ → List η → Option RenderedRequest} [DecidableEq ι]
  (credentialHeaderNames : List η → List Bytes)

/-- A file tree and the fetches that share it. -/
abbrev Fetches (ι : Type) :=
  System ι ResponseDirectory FileCall (Option Bytes) FileTree
    (Option (Except CaptureFailure HTTPBytesResponse))

/-- The fetches take steps in some order, and others write where no fetch has its directory. A fetch
for which no directory is made fails. -/
def FetchesRun (fuel : ℕ) (fetch : ι → Fetch render) :
    Fetches ι → List (Label ι Bytes (Option Node)) → Fetches ι → Prop :=
  Runs privateDirectories (fun index => fetchProgram credentialHeaderNames fuel (fetch index))
    fun _ => some (.error .captureIOFailure)

variable {credentialHeaderNames} {fuel : ℕ} {fetch : ι → Fetch render} {first last : Fetches ι}
  {labels : List (Label ι Bytes (Option Node))}

/-- **Fetches do not disturb each other.** Whatever the order of their calls, and whatever others do
elsewhere in the tree, fetches have different directories, and each of them gives what it would give
alone. -/
theorem fetches_isolated (waiting : ∀ index, first.tasks index = .waiting)
    (ran : FetchesRun credentialHeaderNames fuel fetch first labels last) :
    (∀ index other directory, (last.tasks index).Owns directory →
      (last.tasks other).Owns directory → index = other) ∧
    ∀ index directory result, last.tasks index = .finished directory result →
      result = fetchBytesResponse render credentialHeaderNames fuel
        ((fetch index).surroundings directory) (fetch index).value (fetch index).headers := by
  have confined := fun index directory =>
    confined_fetchProgram credentialHeaderNames fuel (fetch index) directory
  refine ⟨fun index other directory => ran.apart confined waiting, ?_⟩
  intro index directory result finished
  rcases ran.isolated confined waiting finished with ⟨rfl, rfl⟩ | ⟨own, rfl, rfl⟩
  · simp only [fetchBytesResponse, (fetch index).rendered]
    rfl
  · exact (fetchProgram_alone credentialHeaderNames fuel (fetch index) own).1

/-- **Fetches leave nothing behind.** If their removals are permitted, every path outside the
directories that are in use holds what others have left there, as if there had been no fetches. -/
theorem fetches_leave_nothing (enough : 9 ≤ fuel) (waiting : ∀ index, first.tasks index = .waiting)
    (removes : ∀ index, (fetch index).permits.Removes)
    (ran : FetchesRun credentialHeaderNames fuel fetch first labels last) (path : Bytes)
    (free : ∀ index directory, (last.tasks index).Owns directory → path ∉ directory.region) :
    last.store.lookup path = overwritten labels first.store.lookup path := by
  have confined := fun index directory =>
    confined_fetchProgram credentialHeaderNames fuel (fetch index) directory
  have tidy := fun index directory =>
    (fetchProgram_alone credentialHeaderNames fuel (fetch index) directory).2 enough (removes index)
  refine (ran.undisturbed confined tidy waiting).free path ?_
  rintro ⟨index, directory, owns, member⟩
  exact free index directory owns member

end Together

/-! ## Two fetches of one response -/

/-- A fetch of the server that redirects once. Every call is permitted and succeeds. -/
def authorizedFetch : Fetch fun (_ : Unit) (_ : List Unit) => some authorizedWire where
  value := ()
  headers := []
  wire := authorizedWire
  rendered := rfl
  native := redirectingOnce
  leftovers := ⟨false, false⟩
  permits := ⟨true, true, true, true, true⟩

/-- The directory of the first fetch. -/
def firstDirectory : ResponseDirectory := ⟨ascii "aaaaaa", by decide, by decide⟩

@[inherit_doc firstDirectory] def secondDirectory : ResponseDirectory :=
  ⟨ascii "bbbbbb", by decide, by decide⟩

/-- What each of them does. -/
def authorizedProgram (directory : ResponseDirectory) :
    FileProgram (Option (Except CaptureFailure HTTPBytesResponse)) :=
  fetchProgram (fun _ => []) 9 authorizedFetch directory

/-- Two fetches that wait, in an empty tree. -/
def twoWaiting : Fetches Bool := ⟨⟨[]⟩, fun _ => .waiting⟩

/-- The first of them has found a directory. -/
def oneEntered : Fetches Bool :=
  ⟨privateDirectories.make firstDirectory twoWaiting.store,
    Function.update twoWaiting.tasks true
      (.working firstDirectory (authorizedProgram firstDirectory))⟩

/-- Both have found a directory. -/
def twoEntered : Fetches Bool :=
  ⟨privateDirectories.make secondDirectory oneEntered.store,
    Function.update oneEntered.tasks false
      (.working secondDirectory (authorizedProgram secondDirectory))⟩

/-- Both find a directory, and each then makes its calls. -/
theorem exists_twoFinished :
    ∃ labels last one two,
      FetchesRun (fun _ => []) 9 (fun _ => authorizedFetch) twoWaiting labels last ∧
        (∀ label ∈ labels, ∃ index, label = .task index) ∧
        last.tasks true = .finished (some firstDirectory) one ∧
        last.tasks false = .finished (some secondDirectory) two := by
  have distinct : firstDirectory ≠ secondDirectory := by decide
  have vacant : privateDirectories.Vacant secondDirectory oneEntered.store :=
    fun place member => Territory.agree_make distinct _ place member
  have entered : FetchesRun (fun _ => []) 9 (fun _ => authorizedFetch) twoWaiting
      [.task true, .task false] twoEntered :=
    .step (.step (.start _) (.enter firstDirectory rfl fun _ _ => rfl))
      (.enter secondDirectory rfl vacant)
  have works : twoEntered.tasks true =
      .working firstDirectory (authorizedProgram firstDirectory) := rfl
  obtain ⟨labels, middle, one, runs, own, tasks⟩ := exists_finished privateDirectories
    (fun _ => authorizedProgram) (fun _ => some (.error .captureIOFailure)) works
  have works' : middle.tasks false =
      .working secondDirectory (authorizedProgram secondDirectory) := by
    rw [tasks, Function.update_of_ne (by decide)]
    rfl
  obtain ⟨labels', last, two, runs', own', tasks'⟩ := exists_finished privateDirectories
    (fun _ => authorizedProgram) (fun _ => some (.error .captureIOFailure)) works'
  refine ⟨_, last, one, two, (entered.trans runs).trans runs', ?_, ?_, ?_⟩
  · intro label member
    rcases List.mem_append.mp member with member | member
    · rcases List.mem_append.mp member with member | member
      · rcases List.mem_pair.mp member with rfl | rfl
        · exact ⟨true, rfl⟩
        · exact ⟨false, rfl⟩
      · exact ⟨true, own label member⟩
    · exact ⟨false, own' label member⟩
  · rw [tasks', Function.update_of_ne (by decide), tasks, Function.update_self]
  · rw [tasks', Function.update_self]

theorem fetches_isolated_two :
    ∃ labels last,
      FetchesRun (fun _ => []) 9 (fun _ : Bool => authorizedFetch) twoWaiting labels last ∧
        last.tasks true = .finished (some firstDirectory)
          (some (.ok ⟨200, ascii "hi", ascii "identity", ascii "unknown", true⟩)) := by
  obtain ⟨labels, last, one, two, ran, _, finished, _⟩ := exists_twoFinished
  have alone := (fetches_isolated (fun _ => rfl) ran).2 true _ one finished
  have response : fetchBytesResponse (fun (_ : Unit) (_ : List Unit) => some authorizedWire)
      (fun _ => []) 9 (authorizedFetch.surroundings (some firstDirectory)) () [] =
        some (.ok ⟨200, ascii "hi", ascii "identity", ascii "unknown", true⟩) := by decide +kernel
  exact ⟨labels, last, ran, finished.trans (congrArg _ (alone.trans response))⟩

theorem fetches_leave_nothing_two :
    ∃ labels last,
      FetchesRun (fun _ => []) 9 (fun _ : Bool => authorizedFetch) twoWaiting labels last ∧
        ∀ path, last.store.lookup path = none := by
  obtain ⟨labels, last, one, two, ran, own, first, second⟩ := exists_twoFinished
  refine ⟨labels, last, ran, fun path => ?_⟩
  rw [fetches_leave_nothing le_rfl (fun _ => rfl) (fun _ => ⟨rfl, rfl, rfl⟩) ran path ?_,
    overwritten_of_tasks own]
  · rfl
  · intro index directory owns
    cases index with
    | true =>
        rw [first] at owns
        exact owns.elim
    | false =>
        rw [second] at owns
        exact owns.elim

end IcuTransport.Client
