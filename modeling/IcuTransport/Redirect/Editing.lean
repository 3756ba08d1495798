import IcuTransport.Redirect.Rewrite

/-!
# What rewrites do to a request

A redirected request whose target and authority are visible text is cut again into the lines it
was made from, and its target is read back (`requestHeaderLines_redirectedRequest`,
`requestTarget_redirectedRequest`). Edits of lines therefore compose: the edit for one endpoint
after the edit for another is the edit for the last one, which preserves credentials when both did
(`redirectedLines_redirectedLines`). A line of credentials never survives an edit that does not
preserve them (`not_credentialLine_of_mem_redirectedLines`).
-/

set_option autoImplicit false

namespace IcuTransport.Redirect

open Ascii TextScan Wire

/-! ## Authorities and Host lines -/

/-- An authority is the host, or the host and its port. -/
theorem endpointAuthority_parts {endpoint : Endpoint} {capacity : ℕ} {authority : Bytes}
    (found : endpointAuthority endpoint capacity = some authority) :
    authority = endpoint.host.bytes ∨
      authority = endpoint.host.bytes ++ colon :: decimalInt endpoint.port.toInt := by
  simp only [endpointAuthority, Option.ite_none_right_eq_some, Option.some.injEq] at found
  obtain ⟨_, rfl⟩ := found
  by_cases default : endpoint.port = if endpoint.useTls then 443 else 80
  · exact Or.inl (if_pos default)
  · exact Or.inr (if_neg default)

theorem visible_endpointAuthority {endpoint : Endpoint} {capacity : ℕ} {authority : Bytes}
    (found : endpointAuthority endpoint capacity = some authority)
    (visible : Visible endpoint.host.bytes) : Visible authority := by
  rcases endpointAuthority_parts found with rfl | rfl
  · exact visible
  · exact visible.append (Visible.append (by decide : Visible [colon]) (visible_decimalInt _))

theorem length_endpointAuthority_le {endpoint : Endpoint} {capacity : ℕ} {authority : Bytes}
    (found : endpointAuthority endpoint capacity = some authority) :
    authority.length ≤ endpoint.host.bytes.length + 12 := by
  rcases endpointAuthority_parts found with rfl | rfl
  · exact Nat.le_add_right _ _
  · have low := endpoint.port.le_toInt
    have high := endpoint.port.toInt_lt
    have digits : (decimalInt endpoint.port.toInt).length ≤ 10 + 1 :=
      length_decimalInt_le (by decide) (by omega)
    rw [List.length_append, List.length_cons]
    omega

theorem isHostLine_iff {line : Bytes} : isHostLine line = true ↔ Named (ascii "Host") line :=
  headerLineNamed_iff (by decide) line

theorem isHostLine_hostLine (authority : Bytes) : isHostLine (hostLine authority) = true :=
  isHostLine_iff.mpr (named_iff.mpr ⟨ascii "Host", space :: authority, rfl, rfl⟩)

theorem hostLine_cut {authority : Bytes} (visible : Visible authority) :
    hostLine authority ≠ [] ∧ FirstAfter crlf (hostLine authority) := by
  refine ⟨fun empty => ?_, firstAfter_crlf ?_⟩
  · cases (List.append_eq_nil_iff.mp empty).1
  · rw [hostLine, List.mem_append, not_or]
    exact ⟨by decide, visible.not_mem (by decide)⟩

/-! ## Reading a redirected request back -/

theorem isPrefixOf_requestLine (target rest : Bytes) :
    (ascii "GET ").isPrefixOf (redirectedRequestLine target ++ rest) = true := by
  rw [List.isPrefixOf_iff_prefix, redirectedRequestLine, List.append_assoc, List.append_assoc]
  exact List.prefix_append _ _

/-- **The target of a request line is read back.** -/
theorem requestTarget_requestLine (target : CharArray maxTargetBytes) (nonempty : target.bytes ≠ [])
    (visible : Visible target.bytes) (rest : Bytes) :
    requestTarget (redirectedRequestLine target.bytes ++ rest) maxTargetBytes = some target := by
  refine requestTarget_eq_some_iff.mpr
    ⟨ascii "HTTP/1.0" ++ rest, ?_, visible.not_mem (by decide), nonempty⟩
  simp only [redirectedRequestLine, List.append_assoc]
  rfl

theorem requestTarget_redirectedRequest {target : CharArray maxTargetBytes}
    (nonempty : target.bytes ≠ []) (visible : Visible target.bytes) (lines : List Bytes) :
    requestTarget (redirectedRequest target.bytes lines) maxTargetBytes = some target := by
  rw [redirectedRequest, joinLines_cons, List.append_assoc, List.append_assoc]
  exact requestTarget_requestLine target nonempty visible _

section ReadBack

variable {target : Bytes} {lines : List Bytes}

theorem redirectedRequest_cut (visible : Visible target) :
    splitInfix crlf (redirectedRequest target lines) =
      some (redirectedRequestLine target, joinLines crlf lines ++ crlf) := by
  rw [redirectedRequest, joinLines_cons, List.append_assoc]
  refine splitInfix_append (firstAfter_crlf ?_) _
  simp only [redirectedRequestLine, List.mem_append, not_or]
  exact ⟨⟨by decide, visible.not_mem (by decide)⟩, by decide⟩

/-- **The lines of a redirected request are those it was made from.** -/
theorem requestHeaderLines_redirectedRequest (visible : Visible target)
    (cuts : ∀ line ∈ lines, line ≠ [] ∧ FirstAfter crlf line) :
    requestHeaderLines (redirectedRequest target lines) = lines :=
  requestHeaderLines_eq (redirectedRequest_cut visible) (headerBlock_joinLines cuts)

theorem headersComplete_redirectedRequest (visible : Visible target)
    (cuts : ∀ line ∈ lines, line ≠ [] ∧ FirstAfter crlf line) :
    HeadersComplete (redirectedRequest target lines) := by
  refine ⟨_, _, redirectedRequest_cut visible, ?_⟩
  rw [requestHeaderLines_redirectedRequest visible cuts]
  exact headerBlock_joinLines cuts

end ReadBack

/-! ## Edited lines -/

section Edits

variable {authority : Bytes} {preserve : Bool} {names : Option Bytes} {lines : List Bytes}

theorem editLine_eq_some_iff {line edited : Bytes} :
    editLine authority preserve names line = some edited ↔
      (isHostLine line = true ∧ edited = hostLine authority) ∨
        (isHostLine line = false ∧ edited = line ∧
          (preserve = true ∨ carriesCredentials names line = false)) := by
  unfold editLine
  by_cases host : isHostLine line = true
  · simp only [host, if_true, Option.some.injEq, true_and, Bool.true_eq_false, false_and, or_false]
    exact eq_comm
  · rw [if_neg host]
    rw [Bool.not_eq_true] at host
    simp only [host, Bool.false_eq_true, false_and, false_or, true_and]
    split
    · rename_i removed
      simp [removed]
    · rename_i kept
      rw [not_and_or, Bool.not_eq_false, Bool.not_eq_true] at kept
      simp only [Option.some.injEq, kept, and_true]
      exact eq_comm

/-- **The lines of a redirected request**: its `Host` line, and lines of the request before it that
are neither `Host` lines nor withheld. -/
theorem mem_redirectedLines {line : Bytes}
    (member : line ∈ redirectedLines authority preserve names lines) :
    line = hostLine authority ∨
      (line ∈ lines ∧ isHostLine line = false ∧
        (preserve = true ∨ carriesCredentials names line = false)) := by
  rcases List.mem_append.mp member with edited | added
  · obtain ⟨source, within, result⟩ := List.mem_filterMap.mp edited
    rcases editLine_eq_some_iff.mp result with ⟨_, host⟩ | ⟨notHost, rfl, allowed⟩
    · exact Or.inl host
    · exact Or.inr ⟨within, notHost, allowed⟩
  · split at added
    · cases added
    · exact Or.inl (List.mem_singleton.mp added)

theorem hostLine_mem_redirectedLines :
    hostLine authority ∈ redirectedLines authority preserve names lines := by
  unfold redirectedLines
  split
  · rename_i present
    obtain ⟨line, member, host⟩ := List.any_eq_true.mp present
    refine List.mem_append_left _ (List.mem_filterMap.mpr ⟨line, member, ?_⟩)
    exact editLine_eq_some_iff.mpr (Or.inl ⟨host, rfl⟩)
  · exact List.mem_append_right _ (List.mem_singleton.mpr rfl)

theorem redirectedLines_cut (visible : Visible authority)
    (cuts : ∀ line ∈ lines, line ≠ [] ∧ FirstAfter crlf line) :
    ∀ line ∈ redirectedLines authority preserve names lines, line ≠ [] ∧ FirstAfter crlf line := by
  intro line member
  rcases mem_redirectedLines member with rfl | ⟨within, _⟩
  · exact hostLine_cut visible
  · exact cuts line within

/-- A list of names matters only when credentials are withheld. -/
theorem redirectedLines_preserving (other : Option Bytes) :
    redirectedLines authority true names lines = redirectedLines authority true other lines := by
  have same : editLine authority true names = editLine authority true other := by
    funext line
    simp [editLine]
  rw [redirectedLines, same, redirectedLines]

/-- An edit keeps the `Host` lines in number. -/
theorem countP_editedLines (authority : Bytes) (preserve : Bool) (names : Option Bytes)
    (lines : List Bytes) :
    (lines.filterMap (editLine authority preserve names)).countP isHostLine =
      lines.countP isHostLine := by
  induction lines with
  | nil => rfl
  | cons line lines ih =>
      rw [List.countP_cons, ← ih]
      cases edited : editLine authority preserve names line with
      | none =>
          have other : isHostLine line = false := by
            by_contra host
            rw [Bool.not_eq_false] at host
            rw [editLine, if_pos host] at edited
            cases edited
          rw [List.filterMap_cons_none edited, other]
          rfl
      | some result =>
          rw [List.filterMap_cons_some edited, List.countP_cons]
          rcases editLine_eq_some_iff.mp edited with ⟨host, rfl⟩ | ⟨_, rfl, _⟩
          · rw [host, isHostLine_hostLine]
          · rfl

/-- A redirected request has a `Host` line, and no more of them than the request before it. -/
theorem countP_redirectedLines (single : lines.countP isHostLine ≤ 1) :
    (redirectedLines authority preserve names lines).countP isHostLine ≤ 1 := by
  rw [redirectedLines, List.countP_append, countP_editedLines]
  split
  · exact single
  · rename_i absent
    have none' : lines.countP isHostLine = 0 := by
      rw [List.countP_eq_zero]
      intro line member host
      exact absent (List.any_eq_true.mpr ⟨line, member, host⟩)
    rw [none', Nat.zero_add]
    exact List.countP_le_length

/-- Two edits of a line are one, which preserves credentials when both do. -/
theorem editLine_bind_editLine (later : Bytes) (preserve' : Bool) (line : Bytes) :
    (editLine authority preserve names line).bind (editLine later preserve' names) =
      editLine later (preserve && preserve') names line := by
  by_cases host : isHostLine line = true
  · simp only [editLine, if_pos host, Option.bind_some, isHostLine_hostLine, if_true]
  · cases preserve with
    | true => simp only [editLine, if_neg host, Bool.true_eq_false, false_and, if_false,
        Option.bind_some, Bool.true_and]
    | false =>
        by_cases credentials : carriesCredentials names line = true
        · simp [editLine, host, credentials]
        · simp [editLine, host, credentials]

/-- **Edits compose**: nothing is left of the authority of the earlier edit. -/
theorem redirectedLines_redirectedLines (later : Bytes) (preserve' : Bool) :
    redirectedLines later preserve' names (redirectedLines authority preserve names lines) =
      redirectedLines later (preserve && preserve') names lines := by
  have present : (redirectedLines authority preserve names lines).any isHostLine = true :=
    List.any_eq_true.mpr ⟨_, hostLine_mem_redirectedLines, isHostLine_hostLine authority⟩
  have again : editLine later preserve' names (hostLine authority) = some (hostLine later) :=
    editLine_eq_some_iff.mpr (Or.inl ⟨isHostLine_hostLine authority, rfl⟩)
  rw [redirectedLines, if_pos present, List.append_nil, redirectedLines, redirectedLines,
    List.filterMap_append, List.filterMap_filterMap]
  congr 1
  · exact List.filterMap_congr fun line _ => editLine_bind_editLine later preserve' line
  · split
    · rfl
    · rw [List.filterMap_cons_some again, List.filterMap_nil]

end Edits

theorem length_hostLine (authority : Bytes) :
    (hostLine authority).length = authority.length + 6 := by
  rw [hostLine, List.length_append, Nat.add_comm]
  rfl

/-- Replacing `Host` lines is all that makes a text longer. -/
theorem length_editedLines_le (authority : Bytes) (preserve : Bool) (names : Option Bytes)
    (lines : List Bytes) :
    (joinLines crlf (lines.filterMap (editLine authority preserve names))).length ≤
      (joinLines crlf lines).length + lines.countP isHostLine * (authority.length + 8) := by
  induction lines with
  | nil => exact Nat.zero_le _
  | cons line lines ih =>
      have length := length_hostLine authority
      have end_length : crlf.length = 2 := rfl
      rw [joinLines_filterMap_cons, joinLines_cons, List.countP_cons]
      cases edited : editLine authority preserve names line with
      | none =>
          simp only [Option.toList_none, joinLines_nil, List.nil_append, List.length_append,
            Nat.add_mul]
          omega
      | some result =>
          simp only [Option.toList_some, joinLines_cons, joinLines_nil, List.append_nil,
            List.length_append, Nat.add_mul]
          rcases editLine_eq_some_iff.mp edited with ⟨host, rfl⟩ | ⟨_, rfl, _⟩
          · simp only [host, if_true, length]
            omega
          · omega

/-- **With at most one `Host` line a rewrite always has room.** -/
theorem rewriteGetRequestWithPolicy_of_single {request authority : Bytes} {next : Endpoint}
    (complete : HeadersComplete request)
    (found : endpointAuthority next authorityCapacity = some authority)
    (single : (requestHeaderLines request).countP isHostLine ≤ 1) (preserve : Bool)
    (names : Option Bytes) :
    rewriteGetRequestWithPolicy request next preserve names =
      some (redirectedRequest next.target.bytes
        (redirectedLines authority preserve names (requestHeaderLines request))) := by
  refine rewriteGetRequestWithPolicy_eq_some_iff.mpr ⟨complete, authority, found, rfl, ?_⟩
  obtain ⟨first, headers, cut, block⟩ := complete
  obtain ⟨split, _⟩ := splitInfix_eq_some crlf_ne_nil cut
  have total := congrArg List.length split
  have within := block.length_le
  have short := length_endpointAuthority_le found
  have edited := length_editedLines_le authority preserve names (requestHeaderLines request)
  have length := length_hostLine authority
  have fixed : (ascii "GET ").length = 4 ∧ (ascii " HTTP/1.0").length = 9 ∧ crlf.length = 2 := by
    decide
  simp only [List.length_append] at total
  simp only [redirectedRequest, redirectedRequestLine, redirectedLines, rewriteCapacity,
    joinLines_cons, joinLines_append, List.length_append]
  by_cases present : (requestHeaderLines request).any isHostLine = true
  · have once : (requestHeaderLines request).countP isHostLine * (authority.length + 8) ≤
        1 * (authority.length + 8) := Nat.mul_le_mul_right _ single
    simp only [present, if_true, joinLines_nil, List.length_nil]
    omega
  · have never : (requestHeaderLines request).countP isHostLine = 0 := by
      rw [List.countP_eq_zero]
      intro line member host
      exact present (List.any_eq_true.mpr ⟨line, member, host⟩)
    rw [never, Nat.zero_mul] at edited
    simp only [present, Bool.false_eq_true, if_false, joinLines_cons, joinLines_nil,
      List.append_nil,
      List.length_append]
    omega

/-- A rewrite that preserves credentials asks for no list of names. -/
theorem rewriteGetRequest_eq (names : Option Bytes) (request : Bytes) (next : Endpoint) :
    rewriteGetRequest request next = rewriteGetRequestWithPolicy request next true names := by
  refine Option.ext fun output => ?_
  rw [rewriteGetRequest, rewriteGetRequestWithPolicy_eq_some_iff,
    rewriteGetRequestWithPolicy_eq_some_iff]
  simp only [redirectedLines_preserving names]

/-! ## Credentials -/

/-- A header line of credentials: its name is `Authorization`, `Cookie`, or a name of the list
other than `Host`. -/
def CredentialLine (names line : Bytes) : Prop :=
  Named (ascii "Authorization") line ∨ Named (ascii "Cookie") line ∨
    ∃ name ∈ separated lf names, name ≠ [] ∧ foldCase name ≠ foldCase (ascii "Host") ∧
      Named name line

theorem namedInListLoop_eq_true_iff {line : Bytes} {budget : ℕ} {cursor : Bytes}
    (enough : cursor.length ≤ budget) :
    namedInListLoop line budget cursor = true ↔
      ∃ name ∈ separated lf cursor, name ≠ [] ∧ headerLineNamed line name = true := by
  induction budget generalizing cursor with
  | zero =>
      obtain rfl := List.length_eq_zero_iff.mp (Nat.le_zero.mp enough)
      constructor
      · intro absurdity
        cases absurdity
      · rintro ⟨_, member, _⟩
        cases member
  | succ budget ih =>
      by_cases empty : cursor = []
      · subst empty
        constructor
        · intro absurdity
          cases absurdity
        · rintro ⟨_, member, _⟩
          cases member
      · cases next : nextPiece lf cursor with
        | mk name rest =>
            have cut : cutPiece lf cursor = some (name, rest) := (if_neg empty).trans (by rw [next])
            have less := cutPiece_shortens lf cursor name rest cut
            rw [namedInListLoop, if_neg empty, separated, cutAll_of_some (cutPiece_shortens lf) cut]
            simp only [next, List.mem_cons, exists_eq_or_imp]
            have continued := ih (by omega : rest.length ≤ budget)
            rw [separated] at continued
            split
            · rename_i here
              simp only [ne_eq, Bool.and_eq_true, decide_eq_true_eq] at here
              exact ⟨fun _ => Or.inl here, fun _ => rfl⟩
            · rename_i elsewhere
              simp only [ne_eq, Bool.and_eq_true, decide_eq_true_eq] at elsewhere
              rw [continued]
              exact ⟨Or.inr, fun holds => holds.resolve_left elsewhere⟩

/-- A name that a line has holds no colon. -/
theorem Named.headerLineNamed {name line : Bytes} (named : Named name line) :
    Wire.headerLineNamed line name = true := by
  obtain ⟨written, value, cut, same⟩ := named_iff.mp named
  refine (headerLineNamed_iff ?_ line).mpr named
  rw [← mem_foldCase_iff (by decide), ← same, mem_foldCase_iff (by decide)]
  exact (splitFirst_eq_some_iff.mp cut).2

/-- **The code recognises every line of credentials.** -/
theorem CredentialLine.carriesCredentials {names line : Bytes}
    (credential : CredentialLine names line) :
    Redirect.carriesCredentials (some names) line = true := by
  unfold Redirect.carriesCredentials
  rcases credential with named | named | ⟨name, member, nonempty, _, named⟩
  · simp [Named.headerLineNamed named]
  · simp [Named.headerLineNamed named]
  · have listed : headerLineNamedInList line (some names) = true :=
      (namedInListLoop_eq_true_iff le_rfl).mpr ⟨name, member, nonempty, Named.headerLineNamed named⟩
    simp [listed]

theorem CredentialLine.not_hostLine {names authority : Bytes} :
    ¬ CredentialLine names (hostLine authority) := by
  have named : ∀ {name : Bytes}, Named name (hostLine authority) →
      foldCase name = foldCase (ascii "Host") := fun holds =>
    (Option.some.inj holds).symm
  rintro (holds | holds | ⟨name, _, _, other, holds⟩)
  · exact absurd (named holds) (by decide)
  · exact absurd (named holds) (by decide)
  · exact other (named holds)

/-- **No line of credentials survives an edit that withholds them.** -/
theorem not_credentialLine_of_mem_redirectedLines {names authority line : Bytes}
    {lines : List Bytes}
    (member : line ∈ redirectedLines authority false (some names) lines) :
    ¬ CredentialLine names line := by
  intro credential
  rcases mem_redirectedLines member with rfl | ⟨_, _, preserved | clean⟩
  · exact CredentialLine.not_hostLine credential
  · cases preserved
  · rw [credential.carriesCredentials] at clean
    cases clean

end IcuTransport.Redirect
