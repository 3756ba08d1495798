import IcuTransport.Android.Session

/-!
# Exceptions in the native methods

While an exception is pending JNI may only be asked whether there is one, told to clear it, or given
back a reference. A native method that finds nothing returns without looking at the exception, and
what it does on its way out JNI does not see (`Calm`). Everything else it does starts without a
pending exception (`Polite`), and so does the next native call, because Java throws the exception
when a method returns (`polite_session`).
-/

set_option autoImplicit false

namespace IcuTransport.Android

open Ascii Capture Tracing

/-! ## Exceptions -/

section Exceptions

variable {α β : Type}

/-- A computation that JNI does not see. -/
def Calm (computation : Traced JniEvent α) : Prop :=
  ∀ state, watch jniStep state computation.events = some state

/-- From a state without a pending exception the monitor lets a computation pass, with these calls
of the transport, and none is pending after a value that is settled. -/
def Polite (handed : List TransportCall) (computation : Traced JniEvent α) (settled : α → Prop) :
    Prop :=
  ∀ made, ∃ pending, watch jniStep ⟨false, made⟩ computation.events =
    some ⟨pending, made ++ handed⟩ ∧ (settled computation.value → pending = false)

theorem Calm.pure (value : α) : Calm (Pure.pure value : Traced JniEvent α) := fun _ => rfl

theorem Calm.bind {first : Traced JniEvent α} {next : α → Traced JniEvent β} (early : Calm first)
    (late : Calm (next first.value)) : Calm (first >>= next) := by
  intro state
  rw [Traced.events_bind, watch_append, early state, Option.bind_some]
  exact late state

theorem Calm.polite {computation : Traced JniEvent α} (calm : Calm computation)
    (settled : α → Prop) : Polite [] computation settled :=
  fun made => ⟨false, by rw [calm, List.append_nil], fun _ => rfl⟩

theorem calm_giveBack (held : List JniHeld) : Calm (giveBack held) := by
  induction held with
  | nil => exact Calm.pure ()
  | cons first rest ih => exact Calm.bind (fun _ => rfl) ih

theorem calm_noCopy (held : List JniHeld) : Calm (noCopy held) :=
  (calm_giveBack held).bind (Calm.pure none)

/-- A part that has to be settled before the next one. After a part that is not, JNI is left
alone. -/
theorem Polite.bind {handed : List TransportCall} {first : Traced JniEvent α}
    {next : α → Traced JniEvent β} {settled : α → Prop} {settledAfter : β → Prop}
    (early : Polite [] first settled)
    (good : settled first.value → Polite handed (next first.value) settledAfter)
    (bad : ¬ settled first.value → handed = [] ∧ Calm (next first.value) ∧
      ¬ settledAfter (next first.value).value) :
    Polite handed (first >>= next) settledAfter := by
  intro made
  obtain ⟨pending, watched, quiet⟩ := early made
  rw [List.append_nil] at watched
  by_cases holds : settled first.value
  · obtain rfl := quiet holds
    obtain ⟨later, continued, quietLater⟩ := good holds made
    refine ⟨later, ?_, quietLater⟩
    rw [Traced.events_bind, watch_append, watched, Option.bind_some]
    exact continued
  · obtain ⟨rfl, calm, unsettled⟩ := bad holds
    refine ⟨pending, ?_, fun claimed => absurd claimed unsettled⟩
    rw [Traced.events_bind, watch_append, watched, Option.bind_some, calm, List.append_nil]

/-- A part that JNI does not see, and what follows it. -/
theorem Calm.bind_polite {handed : List TransportCall} {first : Traced JniEvent α}
    {next : α → Traced JniEvent β} {settled : β → Prop} (calm : Calm first)
    (polite : Polite handed (next first.value) settled) :
    Polite handed (first >>= next) settled := by
  intro made
  obtain ⟨pending, watched, quiet⟩ := polite made
  refine ⟨pending, ?_, quiet⟩
  rw [Traced.events_bind, watch_append, calm, Option.bind_some]
  exact watched

/-- A part that is always settled, and what JNI does not see after it. -/
theorem Polite.bind_calm {handed : List TransportCall} {first : Traced JniEvent α}
    {next : α → Traced JniEvent β} {settled : α → Prop} {settledAfter : β → Prop}
    (polite : Polite handed first settled) (calm : Calm (next first.value))
    (carries : settledAfter (next first.value).value → settled first.value) :
    Polite handed (first >>= next) settledAfter := by
  intro made
  obtain ⟨pending, watched, quiet⟩ := polite made
  refine ⟨pending, ?_, fun holds => quiet (carries holds)⟩
  rw [Traced.events_bind, watch_append, watched, Option.bind_some]
  exact calm _

theorem polite_callCleared (uses : List JniHeld) (throws : Bool) (settled : Bool → Prop) :
    Polite [] (callCleared uses throws) settled := by
  intro made
  refine ⟨false, ?_, fun _ => rfl⟩
  rw [List.append_nil]
  cases throws with
  | false => rfl
  | true => rfl

theorem polite_askFor (uses : List JniHeld) (answer : Given) :
    Polite [] (askFor uses answer) (· = true) := by
  cases answer with
  | reference => exact polite_callCleared uses false _
  | nothing throws =>
      intro made
      refine ⟨throws, ?_, fun claimed => by cases claimed⟩
      rw [List.append_nil]
      cases throws with
      | false => rfl
      | true => rfl

theorem polite_askForReference (uses : List JniHeld) (held : JniHeld) (answer : Given) :
    Polite [] (askForReference uses held answer) (· = true) := by
  cases answer with
  | reference =>
      intro made
      refine ⟨false, ?_, fun _ => rfl⟩
      rw [List.append_nil]
      rfl
  | nothing throws =>
      intro made
      refine ⟨throws, ?_, fun claimed => by cases claimed⟩
      rw [List.append_nil]
      cases throws with
      | false => rfl
      | true => rfl

/-- A part that may give nothing, and then stops. -/
theorem polite_unless {first : Traced JniEvent Bool} {stop next : Traced JniEvent α}
    {settled : α → Prop} (early : Polite [] first (· = true)) (calm : Calm stop)
    (unsettled : ¬ settled stop.value) (good : Polite [] next settled) :
    Polite [] (first >>= fun given => if given = false then stop else next) settled := by
  refine early.bind ?_ ?_
  · intro given
    rw [given, if_neg (by decide)]
    exact good
  · intro missing
    rw [Bool.not_eq_true] at missing
    rw [missing, if_pos rfl]
    exact ⟨rfl, calm, unsettled⟩

theorem polite_unlessCopied {first : Traced JniEvent Bool} {held : List JniHeld}
    {next : Traced JniEvent (Option CopiedText)} (early : Polite [] first (· = true))
    (good : Polite [] next fun copied => copied.isSome) :
    Polite [] (first >>= fun given => if given = false then noCopy held else next) fun copied =>
      copied.isSome :=
  polite_unless early (calm_noCopy held) Bool.false_ne_true good

/-- **A copy makes no call while an exception is pending**, and none is pending when it succeeds. -/
theorem polite_copyJavaUtf8Held (getBytes : List UInt16 → JavaBytes) (answers : CopyAnswers)
    (string : CopiedString) (value : Option (List UInt16)) :
    Polite [] (copyJavaUtf8Held getBytes answers string value) fun copied => copied.isSome := by
  cases value with
  | none => exact (Calm.pure none).polite _
  | some units =>
      unfold copyJavaUtf8Held
      refine polite_unlessCopied (polite_askForReference _ _ _) ?_
      refine polite_unlessCopied (polite_askFor _ _) ?_
      refine polite_unlessCopied (polite_askForReference _ _ _) ?_
      refine polite_unlessCopied (polite_askForReference _ _ _) ?_
      refine polite_unlessCopied (polite_callCleared _ _ _) ?_
      dsimp only
      split
      · exact (calm_noCopy _).polite _
      · refine Calm.bind_polite (fun _ => rfl) ?_
        have ends : Calm (do
            Traced.emit (.used [.copy string])
            giveBack [.bytes, .utf8, .stringClass]
            pure (some (⟨(getBytes units).bytes ++ [nul],
              Int32.ofNat (getBytes units).bytes.length⟩ : CopiedText))) :=
          Calm.bind (fun _ => rfl) ((calm_giveBack _).bind (Calm.pure _))
        split
        · exact polite_unlessCopied ((Calm.pure true).polite _) (ends.polite _)
        · exact polite_unlessCopied (polite_callCleared _ _ _) (ends.polite _)

/-- What `send` hands over. -/
theorem polite_sendCopied (transport : TransportCall → Int32) (request : JavaRequest)
    (host head body : CopiedText) (settled : Int32 → Prop) :
    Polite ((transportCallOf request host head body).elim (pure 255)
      (callTransport transport)).events (sendCopied transport request host head body) settled := by
  unfold sendCopied
  refine Calm.bind_polite (fun _ => rfl) ?_
  cases transportCallOf request host head body with
  | none => exact (Calm.pure 255).polite _
  | some call => exact fun made => ⟨false, rfl, fun _ => rfl⟩

/-- **`send` makes no call while an exception is pending**, and its calls of the transport are those
of `Android.Bridges`. -/
theorem polite_sendHeld (transport : TransportCall → Int32) (getBytes : List UInt16 → JavaBytes)
    (answers : ForStrings CopyAnswers) (request : JavaRequest) :
    Polite (send transport getBytes (callsOf answers) request).events
      (sendHeld transport getBytes answers request) fun _ => False := by
  rw [send_eq]
  unfold sendHeld
  simp only [callsOf, ← value_copyJavaUtf8Held getBytes answers.host .host,
    ← value_copyJavaUtf8Held getBytes answers.head .head,
    ← value_copyJavaUtf8Held getBytes answers.body .body]
  split
  · exact (Calm.pure 255).polite _
  · refine (polite_copyJavaUtf8Held _ _ _ _).bind ?_ ?_
    · intro given
      obtain ⟨host, found⟩ := Option.isSome_iff_exists.mp given
      rw [found, Option.bind_some]
      refine (polite_copyJavaUtf8Held _ _ _ _).bind ?_ ?_
      · intro given
        obtain ⟨head, found⟩ := Option.isSome_iff_exists.mp given
        rw [found, Option.bind_some]
        refine (polite_copyJavaUtf8Held _ _ _ _).bind ?_ ?_
        · intro given
          obtain ⟨body, found⟩ := Option.isSome_iff_exists.mp given
          rw [found, Option.bind_some]
          exact (polite_sendCopied transport request host head body fun _ => False).bind_calm
            ((calm_giveBack _).bind (Calm.pure _)) id
        · intro missing
          rw [Option.not_isSome_iff_eq_none.mp missing]
          exact ⟨rfl, (calm_giveBack _).bind (Calm.pure _), id⟩
      · intro missing
        rw [Option.not_isSome_iff_eq_none.mp missing]
        exact ⟨rfl, (calm_giveBack _).bind (Calm.pure _), id⟩
    · intro missing
      rw [Option.not_isSome_iff_eq_none.mp missing]
      exact ⟨rfl, Calm.pure 255, id⟩

/-- The calls of the transport that a native call makes. -/
def handedBy (transport : TransportCall → Int32) (getBytes : List UInt16 → JavaBytes) :
    NativeCall → List TransportCall
  | .icuSend request answers => (send transport getBytes (callsOf answers) request).events
  | _ => []

variable (transport : TransportCall → Int32) (getBytes : List UInt16 → JavaBytes)

theorem polite_perform (state : Session) (call : NativeCall) :
    Polite (handedBy transport getBytes call) (perform transport getBytes state call) fun _ =>
      False := by
  cases call with
  | captureArguments arguments newGlobalRef =>
      cases arguments with
      | none => exact (Calm.pure _).polite _
      | some array =>
          refine polite_unless (polite_askForReference _ _ _) (Calm.pure _) id ?_
          exact Calm.bind_polite (calm_giveBack _) ((Calm.pure _).polite _)
  | idricArgumentCount throws =>
      show Polite [] (idricArgumentCount state throws) fun _ => False
      unfold idricArgumentCount
      cases state.captured with
      | none => exact (Calm.pure _).polite _
      | some captured =>
          obtain ⟨capture, array⟩ := captured
          refine (polite_callCleared _ _ fun _ => False).bind_calm ?_ id
          dsimp only
          split
          · exact Calm.pure _
          · exact Calm.pure _
  | idricArgument index newString measureThrows element =>
      show Polite [] (idricArgument state index newString measureThrows element) fun _ => False
      unfold idricArgument
      cases state.captured with
      | none => exact (Calm.pure _).polite _
      | some captured =>
          obtain ⟨capture, array⟩ := captured
          dsimp only
          split
          · exact polite_unless (polite_askFor _ _) (Calm.pure _) id ((Calm.pure _).polite _)
          · refine (polite_callCleared _ _ fun _ => True).bind ?_ fun unsettled =>
              absurd trivial unsettled
            intro _
            split
            · exact (Calm.pure _).polite _
            · cases array.elements[(index - 1).toInt.toNat]?.join with
              | none => exact (polite_askFor _ _).bind_calm (Calm.pure _) False.elim
              | some text =>
                  exact polite_unless (polite_askFor _ _) (Calm.pure _) id
                    ((Calm.pure _).polite _)
  | idricPutString text answers write =>
      show Polite [] (idricPutString getBytes state text answers write) fun _ => False
      refine (polite_copyJavaUtf8Held getBytes answers .stdout text).bind_calm ?_ False.elim
      cases (copyJavaUtf8Held getBytes answers .stdout text).value with
      | none => exact Calm.pure _
      | some copied =>
          refine Calm.bind (fun _ => rfl) ((calm_giveBack _).bind ?_)
          split
          · exact Calm.pure _
          · exact Calm.pure _
  | idricExit status => exact (Calm.pure _).polite _
  | icuSend request answers =>
      exact (polite_sendHeld transport getBytes answers request).bind_calm (Calm.pure _) id

/-- Only a native call that returns calls the transport. -/
theorem handedBy_of_exited {state : Session} {call : NativeCall} {status : Int32}
    (exited : (perform transport getBytes state call).value = .exited status) :
    handedBy transport getBytes call = [] := by
  cases call with
  | icuSend request answers => cases exited
  | captureArguments arguments newGlobalRef => rfl
  | idricArgumentCount throws => rfl
  | idricArgument index newString measureThrows element => rfl
  | idricPutString text answers write => rfl
  | idricExit status => rfl

/-- **Native calls leave JNI in order**: each starts without a pending exception, and the transport
is called by those that return. -/
theorem polite_session (state : Session) (calls : List NativeCall) :
    Polite ((calls.take (session transport getBytes state calls).value.replies.length).flatMap
      (handedBy transport getBytes)) (session transport getBytes state calls) fun _ => False := by
  induction calls generalizing state with
  | nil =>
      rw [List.take_nil]
      exact (Calm.pure _).polite _
  | cons call rest ih =>
      have performed := polite_perform transport getBytes state call
      unfold session
      rw [Traced.value_bind]
      cases ended : (perform transport getBytes state call).value with
      | exited status =>
          rw [handedBy_of_exited transport getBytes ended] at performed
          refine performed.bind_calm ?_ id
          rw [ended]
          exact Calm.pure _
      | returned later reply =>
          intro made
          obtain ⟨pending, watched, _⟩ := performed made
          obtain ⟨last, continued, _⟩ := ih later (made ++ handedBy transport getBytes call)
          refine ⟨last, ?_, False.elim⟩
          rw [Traced.events_bind, ended, watch_append, watched, Option.bind_some]
          simp only [Traced.value_bind, Traced.value_pure, List.length_cons, List.take_succ_cons,
            List.flatMap_cons, Traced.events_bind, Traced.events_emit, List.singleton_append,
            Traced.events_pure, List.append_nil, watch_cons, jniStep, Option.bind_some]
          rw [continued, List.append_assoc]

end Exceptions

end IcuTransport.Android
