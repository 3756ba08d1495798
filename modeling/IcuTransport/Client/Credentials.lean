import IcuTransport.Client.Fetching
import IcuTransport.Redirect.Room

/-!
# The list of credential names

The names of the headers that carry credentials cross from the callers to the program as one text,
each name with an LF after it. Two callers build it, one by recursion and one by `concatMap`; the
program takes it apart with a cursor and compares by length and position.

Nothing is lost on the way: the names between the LFs of the text are the names of the list
(`separated_credentialNamesText`), so a header line is found in the text exactly when its name is in
the list, in any case (`credential_names_decoded`). A name that only begins like the name of the
line, or goes on after it, is not found.
-/

set_option autoImplicit false

namespace IcuTransport.Client

open Ascii TextScan Wire Redirect

/-- A checked header name. -/
structure HeaderName where
  text : Bytes
  nonempty : text ≠ []
  noLf : lf ∉ text
  noColon : colon ∉ text
  noNul : nul ∉ text

/-- The text of a list of names, as `send_request_with_headers` builds it. -/
def credentialNamesText : List HeaderName → Bytes
  | [] => ascii ""
  | name :: rest => name.text ++ ascii "\n" ++ credentialNamesText rest

/-- **The two callers build the same text.** -/
theorem credentialNames_eq (names : List HeaderName) :
    credentialNames (names.map HeaderName.text) = credentialNamesText names := by
  induction names with
  | nil => rfl
  | cons name rest ih =>
      have newline : ascii "\n" = [lf] := by decide
      rw [credentialNamesText, newline, ← ih, List.map_cons, credentialNames, List.flatMap_cons]
      rfl

/-- **What is between the LFs of the text are the names of the list.** -/
theorem separated_credentialNamesText (names : List HeaderName) :
    separated lf (credentialNamesText names) = names.map HeaderName.text := by
  induction names with
  | nil => exact cutAll_of_none rfl
  | cons name rest ih =>
      have split : credentialNamesText (name :: rest) =
          name.text ++ lf :: credentialNamesText rest := by
        rw [credentialNamesText, List.append_assoc]
        rfl
      have cut : cutPiece lf (name.text ++ lf :: credentialNamesText rest) =
          some (name.text, credentialNamesText rest) :=
        cutPiece_of_split (splitFirst_append_cons name.noLf _)
      rw [split, separated, cutAll_of_some (cutPiece_shortens lf) cut, List.map_cons, ← ih,
        separated]

/-- **The program decodes the list**: a line is found exactly when it has one of the names. -/
theorem headerLineNamedInList_iff (names : List HeaderName) (line : Bytes) :
    headerLineNamedInList line (some (credentialNamesText names)) = true ↔
      ∃ name ∈ names, Named name.text line := by
  rw [headerLineNamedInList, namedInListLoop_eq_true_iff le_rfl, separated_credentialNamesText]
  constructor
  · rintro ⟨_, member, _, found⟩
    obtain ⟨name, within, rfl⟩ := List.mem_map.mp member
    exact ⟨name, within, (headerLineNamed_iff name.noColon line).mp found⟩
  · rintro ⟨name, within, named⟩
    exact ⟨name.text, List.mem_map_of_mem within, name.nonempty, Named.headerLineNamed named⟩

/-- What a rewrite for another origin leaves out, in terms of the list of the caller. -/
theorem carriesCredentials_credentialNamesText (names : List HeaderName) (line : Bytes) :
    carriesCredentials (some (credentialNamesText names)) line = true ↔
      Named (ascii "Authorization") line ∨ Named (ascii "Cookie") line ∨
        ∃ name ∈ names, Named name.text line := by
  simp only [carriesCredentials, Bool.or_eq_true, headerLineNamedInList_iff, or_assoc,
    headerLineNamed_iff (by decide : colon ∉ ascii "Authorization"),
    headerLineNamed_iff (by decide : colon ∉ ascii "Cookie")]

/-- One name begins with the other, and they are not the same, in any case. -/
def OnlyBegins (first second : Bytes) : Prop :=
  foldCase first <+: foldCase second ∧ foldCase first ≠ foldCase second

/-- **The list of credential names is encoded and decoded without loss.** A line is found in the
text of a list exactly when it has a colon and the bytes before its first colon are a name of the
list, in any case. The two callers build the same text. A list of names that are only the beginning
of the name of the line, or only begin with it, finds nothing. -/
theorem credential_names_decoded (names : List HeaderName) (line : Bytes) :
    (headerLineNamedInList line (some (credentialNamesText names)) = true ↔
      ∃ written value, line = written ++ colon :: value ∧ colon ∉ written ∧
        ∃ name ∈ names, foldCase written = foldCase name.text) ∧
      credentialNames (names.map HeaderName.text) = credentialNamesText names ∧
      ∀ written value, line = written ++ colon :: value → colon ∉ written →
        (∀ name ∈ names, OnlyBegins name.text written ∨ OnlyBegins written name.text) →
        headerLineNamedInList line (some (credentialNamesText names)) = false := by
  have found : headerLineNamedInList line (some (credentialNamesText names)) = true ↔
      ∃ written value, line = written ++ colon :: value ∧ colon ∉ written ∧
        ∃ name ∈ names, foldCase written = foldCase name.text := by
    simp only [headerLineNamedInList_iff, named_iff, splitFirst_eq_some_iff]
    constructor
    · rintro ⟨name, member, written, value, ⟨split, absent⟩, same⟩
      exact ⟨written, value, split, absent, name, member, same⟩
    · rintro ⟨written, value, split, absent, name, member, same⟩
      exact ⟨name, member, written, value, ⟨split, absent⟩, same⟩
  refine ⟨found, credentialNames_eq names, ?_⟩
  intro written value split absent others
  refine Bool.of_not_eq_true fun matched => ?_
  obtain ⟨written', value', split', absent', name, member, same⟩ := found.mp matched
  have cut := splitFirst_append_cons absent value
  rw [← split, split', splitFirst_append_cons absent' value'] at cut
  obtain rfl := congrArg Prod.fst (Option.some.inj cut)
  rcases others name member with begins | begins
  · exact begins.2 same.symm
  · exact begins.2 same

/-- The name of a key header. -/
def keyHeader : HeaderName :=
  ⟨ascii "X-Key", by decide, by decide, by decide, by decide⟩

theorem credential_names_decoded_key :
    headerLineNamedInList (ascii "x-key: 1") (some (credentialNamesText [keyHeader])) = true ∧
      headerLineNamedInList (ascii "X-Keys: 1") (some (credentialNamesText [keyHeader])) =
        false := by
  constructor
  · refine (credential_names_decoded [keyHeader] (ascii "x-key: 1")).1.mpr ?_
    exact ⟨ascii "x-key", ascii " 1", by decide, by decide, keyHeader, List.mem_singleton_self _,
      by decide⟩
  · refine (credential_names_decoded [keyHeader] (ascii "X-Keys: 1")).2.2 (ascii "X-Keys")
      (ascii " 1") (by decide) (by decide) ?_
    intro name member
    rw [List.mem_singleton.mp member]
    exact Or.inl ⟨⟨ascii "s", by decide⟩, by decide⟩

end IcuTransport.Client
