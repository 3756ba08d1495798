import IcuTransport.Client.Ownership

/-!
# What a run owns is given back

Every part of `sendRequestOwned` is balanced: from what is owned before it the monitor lets it pass
to what its value says is owned after it. The connection is a part that was followed on its own
(`Client.Discipline`), and it is seen here among the other things by the frame rule. A turn that
goes on leaves the text of the next request in the place of the one before it
(`balanced_turnOwned`), and the last turn leaves nothing.

A run therefore gives back everything it acquires, once, and uses nothing after that
(`everything_released`).
-/

set_option autoImplicit false

namespace IcuTransport.Client

open Ascii TextScan TurnLoop Tracing Wire Redirect Capture Connect Custody

/-! ## The connection among the other things -/

theorem kind_connection (first second : Handle)
    (same : (Owned.connection first).kind = (Owned.connection second).kind) :
    first.kind = second.kind := Sum.inl.inj same

theorem connection_injective : Function.Injective Owned.connection :=
  fun _ _ same => Owned.connection.inj same

/-- Something other than a connection is of a kind that is not held when it is not held itself. -/
theorem kind_notMem {owned : Owned} {held : List Owned} (own : owned.kind = .inr owned)
    (absent : owned ∉ held) : owned.kind ∉ held.map Owned.kind := by
  intro member
  obtain ⟨other, among, same⟩ := List.mem_map.mp member
  rw [own] at same
  cases other with
  | connection handle => cases same
  | request redirects => exact absent (Sum.inr.inj same ▸ among)
  | contents reads => exact absent (Sum.inr.inj same ▸ among)
  | descriptor file => exact absent (Sum.inr.inj same ▸ among)
  | stream file => exact absent (Sum.inr.inj same ▸ among)
  | reader => exact absent (Sum.inr.inj same ▸ among)

/-- Nothing here belongs to a connection. -/
def Aside (frame : List Owned) : Prop := ∀ owned ∈ frame, owned.kind = .inr owned

section Frames

variable {frame : List Owned}

theorem Aside.apart (aside : Aside frame) :
    Apart Handle.kind Owned.kind Owned.connection frame := by
  refine ⟨kind_connection, ?_⟩
  intro handle member
  obtain ⟨owned, among, same⟩ := List.mem_map.mp member
  rw [aside owned among] at same
  cases same

theorem renders_amongOwned {texts streams : List Owned} (textsHeld : texts ⊆ frame)
    (streamsHeld : streams ⊆ frame) (event : Event) :
    Renders Owned.connection frame event.action (amongOwned texts streams event) := by
  cases event with
  | opening host port useTls => exact ⟨[], List.nil_subset frame, rfl⟩
  | acquired handle => rfl
  | released handle => rfl
  | used handles => exact ⟨[], List.nil_subset frame, rfl⟩
  | sent way bytes => exact ⟨texts, textsHeld, rfl⟩
  | received way bytes => exact ⟨[], List.nil_subset frame, rfl⟩
  | created file => exact ⟨[], List.nil_subset frame, rfl⟩
  | wrote bytes => exact ⟨streams, streamsHeld, rfl⟩

/-- **A part that works on the connection leaves everything else as it is.** -/
theorem balanced_among {α : Type} {texts streams : List Owned} (aside : Aside frame)
    (textsHeld : texts ⊆ frame) (streamsHeld : streams ⊆ frame) {computation : Traced Event α}
    {before : List Handle} {output : Output} {after : α → List Handle} {put : α → Output}
    (guarded : Guarded account (before, output) computation fun value =>
      (after value, put value)) :
    Balanced Owned.kind (before.map .connection ++ frame)
      (computation.mapEvents (amongOwned texts streams)) fun value =>
      (after value).map .connection ++ frame := by
  have seen : watch custody before computation.events = some (after computation.value) :=
    (watch_both.mp guarded).1
  rw [watch_custody] at seen
  exact Balanced.framed aside.apart connection_injective
    (renders_amongOwned textsHeld streamsHeld) seen

/-- What is left when the connection is closed and the request freed. -/
theorem balanced_releasing {α : Type} {redirects : ℕ} (aside : Aside (.request redirects :: frame))
    (record : ConnectionRecord) (value : α) {after : α → List Owned} (same : after value = frame) :
    Balanced Owned.kind (record.handles.map .connection ++ .request redirects :: frame)
      (releasing record redirects value) after := by
  have closed : Guarded account (record.handles, .nothing) (closeConnection record) fun _ =>
    ([], .nothing) := custody_closeConnection record
  refine Balanced.bind (balanced_among aside (List.nil_subset _) (List.nil_subset _) closed) ?_
  refine Balanced.release_bind (List.Perm.refl _) (Balanced.pure ?_)
  rw [same]

/-! ## Reading the body file back -/

theorem balanced_freeContents {α : Type} {reads : ℕ} {before : List Owned}
    {next : Unit → Traced (Action Owned) α} {after : α → List Owned}
    (holds : before.Perm (contentsOf reads ++ frame))
    (follows : Balanced Owned.kind frame (next ()) after) :
    Balanced Owned.kind before (freeContents reads >>= next) after := by
  cases reads with
  | zero => exact Balanced.permute holds follows
  | succ reads => exact Balanced.release_bind holds follows

/-- What the reader leaves: the stream and the memory, or nothing. -/
def leftOpen : Option (ℕ × Bytes) → List Owned
  | none => []
  | some (reads, _) => .reader :: contentsOf reads

theorem balanced_abandonReader (reads : ℕ) :
    Balanced Owned.kind (.reader :: contentsOf reads ++ frame) (abandonReader reads) fun found =>
      leftOpen found ++ frame :=
  balanced_freeContents List.perm_middle.symm
    (Balanced.release_bind (List.Perm.refl _) (Balanced.pure (List.Perm.refl _)))

/-- **The memory grows with what is read**: there is one block of it, whatever the reads were. -/
theorem balanced_readBackLoop (absent : ∀ number, .contents number ∉ frame) (calls : ReadBack)
    (reads : ℕ) (used unread : Bytes) :
    Balanced Owned.kind (.reader :: contentsOf reads ++ frame)
      (readBackLoop calls reads used unread) fun found => leftOpen found ++ frame := by
  fun_induction readBackLoop calls reads used unread with
  | case1 reads used unread ih =>
      refine Balanced.touch_bind (by simp) ?_
      dsimp only at ih ⊢
      split
      · split
        · exact balanced_abandonReader reads
        · exact Balanced.pure (List.Perm.refl _)
      · rename_i more
        split
        · exact balanced_abandonReader reads
        · refine balanced_freeContents List.perm_middle.symm ?_
          refine Balanced.acquire_bind (kind_notMem rfl ?_) ?_
          · simp [absent]
          refine Balanced.touch_bind (by simp) ?_
          refine Balanced.permute (List.Perm.swap .reader (.contents reads) frame) ?_
          split
          · split
            · exact balanced_abandonReader (reads + 1)
            · exact Balanced.pure (List.Perm.refl _)
          · exact ih more

/-- **The reader gives back its stream and its memory.** -/
theorem balanced_validUtf8FileOwned (noReader : .reader ∉ frame)
    (absent : ∀ number, .contents number ∉ frame) (calls : ReadBack) (contents : Bytes) :
    Balanced Owned.kind frame (validUtf8FileOwned calls contents) fun _ => frame := by
  unfold validUtf8FileOwned
  split
  · exact Balanced.pure (List.Perm.refl _)
  · refine Balanced.acquire_bind (kind_notMem rfl noReader) ?_
    refine Balanced.bind (balanced_readBackLoop absent calls 0 [] (calls.reached contents)) ?_
    cases (readBackLoop calls 0 [] (calls.reached contents)).value with
    | none => exact Balanced.pure (List.Perm.refl _)
    | some read =>
        obtain ⟨reads, all⟩ := read
        refine Balanced.release_bind (List.Perm.refl _) ?_
        refine Balanced.touch_bind (List.subset_append_left _ _) ?_
        exact balanced_freeContents (List.Perm.refl _) (Balanced.pure (List.Perm.refl _))

/-! ## The files -/

theorem balanced_privateOutputOwned {file : CaptureFile} (noDescriptor : .descriptor file ∉ frame)
    (noStream : .stream file ∉ frame) (outcome : PrivateFile) :
    Balanced Owned.kind frame (privateOutputOwned file outcome) fun opened =>
      if opened then .stream file :: frame else frame := by
  cases outcome with
  | refused => exact Balanced.pure (List.Perm.refl _)
  | unbuffered =>
      refine Balanced.acquire_bind (kind_notMem rfl noDescriptor) ?_
      exact Balanced.release_bind (List.Perm.refl _) (Balanced.pure (List.Perm.refl _))
  | opened =>
      refine Balanced.acquire_bind (kind_notMem rfl noDescriptor) ?_
      refine Balanced.release_bind (List.Perm.refl _) ?_
      exact Balanced.acquire_bind (kind_notMem rfl noStream) (Balanced.pure (List.Perm.refl _))

/-- Nothing here has to do with the metadata. -/
structure WithoutMetadata (frame : List Owned) : Prop where
  noDescriptor : .descriptor .metadata ∉ frame
  noStream : .stream .metadata ∉ frame
  noReader : .reader ∉ frame
  noContents : ∀ number, .contents number ∉ frame

/-- **Writing the metadata closes every stream and frees every block** it needs. -/
theorem balanced_writeResponseMetadataOwned (without : WithoutMetadata frame)
    (world : OwningWorld) (path : Option Bytes) (head : ResponseHead) (receivedLength : ℕ)
    (bodyFile : Option Bytes) :
    Balanced Owned.kind frame
      (writeResponseMetadataOwned world path head receivedLength bodyFile) fun _ => frame := by
  cases path with
  | none => exact Balanced.pure (List.Perm.refl _)
  | some path =>
      unfold writeResponseMetadataOwned
      refine Balanced.bind
        (balanced_privateOutputOwned without.noDescriptor without.noStream _) ?_
      rw [value_privateOutputOwned]
      cases world.native.metadataFile.opens with
      | false => exact Balanced.pure (List.Perm.refl _)
      | true =>
          have noReader : .reader ∉ .stream .metadata :: frame := by simp [without.noReader]
          have noContents : ∀ number, .contents number ∉ .stream .metadata :: frame := by
            simp [without.noContents]
          have closes : ∀ shown : Bool × Option Bytes, Balanced Owned.kind
              (.stream .metadata :: frame) (do
                Traced.emit (.touch [.stream .metadata])
                Traced.emit (.release (.stream .metadata))
                pure shown) fun _ => frame := by
            intro shown
            refine Balanced.touch_bind (by simp) ?_
            exact Balanced.release_bind (List.Perm.refl _) (Balanced.pure (List.Perm.refl _))
          simp only [Bool.true_eq_false, if_false, if_true]
          cases bodyFile with
          | none => exact closes _
          | some contents =>
              exact Balanced.bind (balanced_validUtf8FileOwned noReader noContents _ contents)
                (closes _)

end Frames

/-! ## The request -/

section Requests

variable {redirects : ℕ} {frame : List Owned}

/-- The text of a request that was written, if it was. -/
def textOf {α : Type} (redirects : ℕ) (written : Option α) : List Owned :=
  if written.isSome then [.request redirects] else []

theorem balanced_discardRequest {α : Type} :
    Balanced Owned.kind (.request redirects :: frame)
      (discardRequest redirects : Traced (Action Owned) (Option α)) fun written =>
      textOf redirects written ++ frame :=
  Balanced.release_bind (List.Perm.refl _) (Balanced.pure (List.Perm.refl _))

theorem balanced_appendOwned (capacity : ℕ) (output piece : Bytes) :
    Balanced Owned.kind (.request redirects :: frame)
      (appendOwned redirects capacity output piece) fun written =>
      textOf redirects written ++ frame := by
  unfold appendOwned
  cases appendWithin capacity output piece with
  | none => exact balanced_discardRequest
  | some longer => exact Balanced.touch_bind (by simp) (Balanced.pure (List.Perm.refl _))

/-- A part of the rewriter, and what follows it when it did not give up. -/
theorem balanced_rewriting {α β : Type} {first : Traced (Action Owned) (Option α)}
    {next : α → Traced (Action Owned) (Option β)}
    (balanced : Balanced Owned.kind (.request redirects :: frame) first fun written =>
      textOf redirects written ++ frame)
    (follows : ∀ value, Balanced Owned.kind (.request redirects :: frame) (next value)
      fun written => textOf redirects written ++ frame) :
    Balanced Owned.kind (.request redirects :: frame) (first.andThen next) fun written =>
      textOf redirects written ++ frame := by
  refine Balanced.bind balanced ?_
  cases first.value with
  | none => exact Balanced.pure (List.Perm.refl _)
  | some value => exact follows value

/-- **The loop of the rewriter frees the new request exactly when it gives up.** -/
theorem balanced_rewriteLoopOwned (held : .request redirects ∈ frame) (capacity : ℕ)
    (authority : Bytes) (preserve : Bool) (names : Option Bytes) (budget : ℕ)
    (cursor output : Bytes) (replaced : Bool) :
    Balanced Owned.kind (.request (redirects + 1) :: frame)
      (rewriteLoopOwned redirects capacity authority preserve names budget cursor output replaced)
      fun written => textOf (redirects + 1) written ++ frame := by
  induction budget generalizing cursor output replaced with
  | zero => exact Balanced.pure (List.Perm.refl _)
  | succ budget ih =>
      rw [rewriteLoopOwned]
      refine Balanced.touch_bind (by simp [held]) ?_
      split
      · exact Balanced.pure (List.Perm.refl _)
      · cases splitInfix crlf cursor with
        | none => exact balanced_discardRequest
        | some cut =>
            obtain ⟨line, rest⟩ := cut
            dsimp only
            split
            · exact Balanced.pure (List.Perm.refl _)
            · split
              · exact balanced_rewriting (balanced_appendOwned _ _ _) fun _ => ih _ _ _
              · split
                · exact ih _ _ _
                · exact balanced_rewriting (balanced_appendOwned _ _ _) fun _ => ih _ _ _

/-- **The rewriter leaves a request that it made, and nothing when it gives up.** -/
theorem balanced_rewriteGetRequestOwned (held : .request redirects ∈ frame)
    (fresh : .request (redirects + 1) ∉ frame) (allocates : Bool) (request : Bytes)
    (next : Endpoint) (preserve : Bool) (names : Option Bytes) :
    Balanced Owned.kind frame
      (rewriteGetRequestOwned allocates redirects request next preserve names) fun written =>
      textOf (redirects + 1) written ++ frame := by
  unfold rewriteGetRequestOwned
  refine Balanced.touch_bind (by simp [held]) ?_
  cases splitInfix crlf request with
  | none => exact Balanced.pure (List.Perm.refl _)
  | some cut =>
      obtain ⟨first, headers⟩ := cut
      dsimp only
      split
      · exact Balanced.pure (List.Perm.refl _)
      · refine Balanced.acquire_bind (kind_notMem rfl fresh) ?_
        cases endpointAuthority next authorityCapacity with
        | none => exact balanced_discardRequest
        | some authority =>
            refine balanced_rewriting (balanced_appendOwned _ _ _) fun output => ?_
            refine balanced_rewriting (balanced_rewriteLoopOwned held _ _ _ _ _ _ _ _)
              fun rewritten => ?_
            refine balanced_rewriting ?_ fun output => balanced_appendOwned _ _ _
            split
            · exact Balanced.pure (List.Perm.refl _)
            · exact balanced_appendOwned _ _ _

theorem balanced_redirectedGetRequestOwned {state : LoopState}
    (held : .request state.redirects ∈ frame)
    (fresh : .request (state.redirects + 1) ∉ frame) (world : OwningWorld) (call : Call)
    (next : Endpoint) :
    Balanced Owned.kind frame (redirectedGetRequestOwned world call state next) fun written =>
      textOf (state.redirects + 1) written ++ frame := by
  unfold redirectedGetRequestOwned
  split
  · exact balanced_rewriteGetRequestOwned held fresh _ _ _ _ _
  · exact balanced_rewriteGetRequestOwned held fresh _ _ _ _ _

end Requests

/-! ## Delivering -/

/-- What is owned while a response is there: the connection and the request. -/
def ownedWith (record : ConnectionRecord) (redirects : ℕ) : List Owned :=
  record.handles.map .connection ++ [.request redirects]

theorem aside_request (redirects : ℕ) (more : List Owned) (aside : Aside more) :
    Aside (.request redirects :: more) := by
  intro owned member
  rcases List.mem_cons.mp member with rfl | other
  · rfl
  · exact aside owned other

theorem aside_nil : Aside [] := fun _ member => by cases member

section Deliveries

variable (world : OwningWorld) (call : Call) (redirects : ℕ) (response : Response)
  (record : ConnectionRecord)

theorem withoutMetadata_ownedWith : WithoutMetadata (ownedWith record redirects) := by
  constructor
  all_goals simp [ownedWith]

/-- Something that is acquired comes to stand behind the request. -/
theorem perm_ownedWith (owned : Owned) :
    (owned :: ownedWith record redirects).Perm
      (record.handles.map .connection ++ [.request redirects, owned]) := by
  have behind : record.handles.map .connection ++ [.request redirects, owned] =
      ownedWith record redirects ++ [owned] := by
    rw [ownedWith, List.append_assoc, List.singleton_append]
  rw [behind]
  exact (List.perm_append_singleton owned _).symm

theorem balanced_copying {streams frame : List Owned} (aside : Aside frame)
    (streamsHeld : streams ⊆ frame) (toFile : Bool) (stream : OutputStream) :
    Balanced Owned.kind (record.handles.map .connection ++ frame)
      ((copyRemainingBodyTraced record.way toFile stream response.connection 13
        response.bodyPrefix).mapEvents (amongOwned [] streams)) fun _ =>
      record.handles.map .connection ++ frame := by
  have copies : Guarded account (record.handles, ⟨[], []⟩)
      (copyRemainingBodyTraced record.way toFile stream response.connection 13 response.bodyPrefix)
      fun copy => (record.handles, ⟨[], copy.written⟩) :=
    custody_copyRemainingBodyTraced (way_subset_handles record) _ _ _ _ _
  exact balanced_among aside (List.nil_subset frame) streamsHeld copies

theorem balanced_finishing {α : Type} (value : α) {after : α → List Owned}
    (same : after value = []) :
    Balanced Owned.kind (ownedWith record redirects) (releasing record redirects value) after :=
  balanced_releasing (aside_request redirects [] aside_nil) record value same

theorem balanced_deliverToStdoutOwned :
    Balanced Owned.kind (ownedWith record redirects)
      (deliverToStdoutOwned world call redirects response record) fun _ => [] := by
  unfold deliverToStdoutOwned
  refine Balanced.bind (balanced_copying response record (aside_request redirects [] aside_nil)
    (List.nil_subset _) _ _) ?_
  refine Balanced.bind (balanced_writeResponseMetadataOwned
    (withoutMetadata_ownedWith redirects record) _ _ _ _ _) ?_
  exact balanced_finishing redirects record _ rfl

theorem balanced_deliverToFilesOwned :
    Balanced Owned.kind (ownedWith record redirects)
      (deliverToFilesOwned world call redirects response record) fun _ => [] := by
  unfold deliverToFilesOwned
  split
  · exact balanced_finishing redirects record _ rfl
  · split
    · exact balanced_finishing redirects record _ rfl
    · refine Balanced.bind (balanced_privateOutputOwned ?_ ?_ _) ?_
      · simp [ownedWith]
      · simp [ownedWith]
      rw [value_privateOutputOwned]
      cases world.native.bodyFile.opens with
      | false => exact balanced_finishing redirects record _ rfl
      | true =>
          simp only [Bool.true_eq_false, if_false, if_true]
          have aside : Aside [.request redirects, .stream .body] := by
            intro owned member
            simp only [List.mem_cons, List.not_mem_nil, or_false] at member
            rcases member with rfl | rfl
            · rfl
            · rfl
          have opened := perm_ownedWith redirects record (.stream .body)
          refine Balanced.permute opened (Balanced.bind
            (balanced_copying response record aside (by simp) _ _) ?_)
          refine Balanced.release_bind opened.symm ?_
          refine Balanced.bind (balanced_writeResponseMetadataOwned
            (withoutMetadata_ownedWith redirects record) _ _ _ _ _) ?_
          exact balanced_finishing redirects record _ rfl

/-- **A delivery leaves nothing**, whatever goes wrong with the output. -/
theorem balanced_deliverOwned :
    Balanced Owned.kind (ownedWith record redirects)
      (deliverOwned world call redirects response record) fun _ => [] := by
  unfold deliverOwned
  cases call.bodyOutputPath with
  | none => exact balanced_deliverToStdoutOwned world call redirects response record
  | some path => exact balanced_deliverToFilesOwned world call redirects response record

end Deliveries

/-! ## The loop -/

/-- What a turn leaves: the request of the next turn, or nothing. -/
def leftAfter : Turn LoopState (ℕ × Delivery) → List Owned
  | .next later => [.request later.redirects]
  | .finished _ => []

/-- **A turn gives back the request it starts with**, and leaves the one it goes on with. -/
theorem balanced_turnOwned (world : OwningWorld) (call : Call) (state : LoopState) :
    Balanced Owned.kind [.request state.redirects] (turnOwned world call state) leftAfter := by
  unfold turnOwned
  refine Balanced.bind (balanced_among (aside_request state.redirects [] aside_nil)
    (List.Subset.refl _) (List.nil_subset _) (custody_oneRequestTraced world.native _ _)) ?_
  rw [Traced.value_mapEvents]
  cases (oneRequestTraced world.native state.redirects (state.exchange call)).value with
  | error code => exact Balanced.release_bind (List.Perm.refl _) (Balanced.pure (List.Perm.refl _))
  | ok received =>
      obtain ⟨response, record⟩ := received
      dsimp only
      refine Balanced.touch_bind (by simp) ?_
      split
      · exact Balanced.bind (balanced_deliverOwned world call state.redirects response record)
          (Balanced.pure (List.Perm.refl _))
      · split
        · exact balanced_finishing state.redirects record _ rfl
        · cases resolveLocation state.current state.request response.head.location.text with
          | none => exact balanced_finishing state.redirects record _ rfl
          | some next =>
              dsimp only
              have held : .request state.redirects ∈ ownedWith record state.redirects := by
                simp [ownedWith]
              have fresh : .request (state.redirects + 1) ∉ ownedWith record state.redirects := by
                simp [ownedWith]
              refine Balanced.bind
                (balanced_redirectedGetRequestOwned held fresh world call next) ?_
              cases (redirectedGetRequestOwned world call state next).value with
              | none => exact balanced_finishing state.redirects record _ rfl
              | some request =>
                  have written := perm_ownedWith state.redirects record
                    (.request (state.redirects + 1))
                  refine Balanced.permute written (balanced_releasing ?_ record _ rfl)
                  exact aside_request _ _ (aside_request _ _ aside_nil)

/-- **The run returns**: nine turns are enough, and more give the same outcome and trace. -/
theorem sendRequestOwned_returns (world : OwningWorld) (call : Call) :
    ∃ ran, ∀ fuel, 9 ≤ fuel → sendRequestOwned fuel world call = some ran := by
  unfold sendRequestOwned
  cases began : start world.native.toWorld call with
  | error code => exact ⟨_, fun _ _ => rfl⟩
  | ok state =>
      have fresh := (started_of_start began).redirects
      have counts : ∀ state later, (turnOwned world call state).value = .next later →
          maxRedirects - later.redirects < maxRedirects - state.redirects := by
        intro state later went
        obtain ⟨readable, same⟩ := value_turnOwned world call state
        obtain ⟨left, counted⟩ := redirects_of_turn (same.symm.trans went)
        omega
      obtain ⟨⟨visits, result⟩, looped⟩ :=
        run_of_rank (fun state : LoopState => maxRedirects - state.redirects) counts
          (show maxRedirects - state.redirects < maxRedirects + 1 by omega)
      refine ⟨⟨⟨visits.map (LoopState.exchange call), result.1, result.2⟩,
        .acquire (.request 0) :: visits.flatMap fun visit => (turnOwned world call visit).events⟩,
        fun fuel enough => ?_⟩
      simp only [runTraced_eq, run_mono looped enough, Option.map_some]

/-- **What a run leaves is nothing.** -/
theorem balanced_sendRequestOwned {fuel : ℕ} {world : OwningWorld} {call : Call}
    {ran : Traced (Action Owned) Outcome}
    (returned : sendRequestOwned fuel world call = some ran) :
    Balanced Owned.kind [] ran fun _ => [] := by
  unfold sendRequestOwned at returned
  cases began : start world.native.toWorld call with
  | error code =>
      simp only [began, Option.some.injEq] at returned
      subst returned
      exact Balanced.pure (List.Perm.refl _)
  | ok state =>
      simp only [began, Option.map_eq_some_iff] at returned
      obtain ⟨visited, looped, rfl⟩ := returned
      have goesOn : ∀ state later, (turnOwned world call state).value = .next later →
          watch (step Owned.kind) [.request state.redirects] (turnOwned world call state).events =
            some [.request later.redirects] := by
        intro state later went
        obtain ⟨reached, watched, same⟩ := balanced_turnOwned world call state
        rw [went] at same
        rw [watched, List.perm_singleton.mp same]
      obtain ⟨last, finished, _, seen⟩ :=
        watch_runTraced_along (fun state => [Owned.request state.redirects]) goesOn looped
      obtain ⟨reached, watched, same⟩ := balanced_turnOwned world call last
      rw [finished] at same
      have fresh := (started_of_start began).redirects
      rw [fresh] at seen
      refine ⟨reached, ?_, same⟩
      have allowed : Allowed Owned.kind [] (.acquire (.request 0)) := List.not_mem_nil
      rw [watch_cons, step_of_allowed allowed, Option.bind_some]
      exact seen.trans watched

/-- **Everything is given back.** Whatever the outcome of each call, the run returns what the plain
run returns, and in its trace every block of memory, descriptor, stream, socket and TLS object is
released after its acquisition, once, before the end, and used only in between; never are two
connections held. -/
theorem everything_released (world : OwningWorld) (call : Call) :
    ∃ ran, (∀ fuel, 9 ≤ fuel → sendRequestOwned fuel world call = some ran) ∧
      (∃ readable, ∀ fuel, 9 ≤ fuel →
        sendRequest fuel (world.reading readable).toWorld call = some ran.value) ∧
      Orderly Owned.kind ran.events := by
  obtain ⟨ran, returns⟩ := sendRequestOwned_returns world call
  obtain ⟨readable, plain⟩ := value_sendRequestOwned (returns 9 le_rfl)
  refine ⟨ran, returns, ⟨readable, ?_⟩, (balanced_sendRequestOwned (returns 9 le_rfl)).orderly⟩
  obtain ⟨outcome, settled⟩ := sendRequest_returns (world.reading readable).toWorld call
  intro fuel enough
  rw [settled fuel enough, ← settled 9 le_rfl, plain]

end IcuTransport.Client
