import IcuTransport.Redirect.Location
import IcuTransport.Wire.HeaderLines

/-!
# The request of a redirect

A followed redirect sends the header lines of the previous request to the next endpoint:
`rewriteGetRequestWithPolicy` writes a new request line, puts the authority of the endpoint in
the place of every `Host` line (or adds one), leaves out the lines that carry credentials when
these are not to be preserved, and copies every other line.

The text is rebuilt line by line into a buffer whose size is fixed beforehand. In terms of lines
a rewrite is an edit (`redirectedLines`): a request is rewritten exactly when its header block is
complete, the endpoint has an authority and the edited text fits
(`rewriteGetRequestWithPolicy_eq_some_iff`).
-/

set_option autoImplicit false

namespace IcuTransport.Redirect

open Ascii TextScan Wire

/-! ## The code -/

/-- The size of the buffer for an authority. -/
def authorityCapacity : ℕ := maxHostBytes + 16

/-- The host of an endpoint, with its port unless that is the default port of the scheme. -/
def endpointAuthority (value : Endpoint) (capacity : ℕ) : Option Bytes :=
  let defaultPort : Int32 := if value.useTls then 443 else 80
  let written :=
    if value.port = defaultPort then value.host.bytes
    else value.host.bytes ++ colon :: decimalInt value.port.toInt
  if 0 < written.length ∧ written.length < capacity then some written else none

/-- The loop of `header_line_named_in_list`, from a cursor at the start of a name. -/
def namedInListLoop (line : Bytes) : ℕ → Bytes → Bool
  | 0, _ => false
  | budget + 1, cursor =>
      if cursor = [] then false
      else
        let name := (nextPiece lf cursor).1
        if name ≠ [] && headerLineNamed line name then true
        else namedInListLoop line budget (nextPiece lf cursor).2

/-- The line has one of the names of a list, which are separated by LF. -/
def headerLineNamedInList (line : Bytes) : Option Bytes → Bool
  | none => false
  | some names => namedInListLoop line names.length names

/-- Add a piece to the output, when room is left for it and for the terminator. -/
def appendWithin (capacity : ℕ) (output piece : Bytes) : Option Bytes :=
  if piece.length ≥ capacity - output.length then none else some (output ++ piece)

/-- The `Host` line of an authority. -/
def hostLine (authority : Bytes) : Bytes := ascii "Host: " ++ authority

/-- A line of credentials: `Authorization`, `Cookie`, or one of the listed names. -/
def carriesCredentials (names : Option Bytes) (line : Bytes) : Bool :=
  headerLineNamed line (ascii "Authorization") || headerLineNamed line (ascii "Cookie") ||
    headerLineNamedInList line names

/-- The loop of `rewrite_get_request_with_policy`, from a cursor at the start of a header line. It
gives the output and whether a `Host` line was replaced. -/
def rewriteLoop (capacity : ℕ) (authority : Bytes) (preserveSensitive : Bool)
    (names : Option Bytes) : ℕ → Bytes → Bytes → Bool → Option (Bytes × Bool)
  | 0, _, output, replacedHost => some (output, replacedHost)
  | budget + 1, cursor, output, replacedHost =>
      if cursor = [] then some (output, replacedHost)
      else
        match splitInfix crlf cursor with
        | none => none
        | some (line, rest) =>
            if line = [] then some (output, replacedHost)
            else if headerLineNamed line (ascii "Host") then
              (appendWithin capacity output (hostLine authority ++ crlf)).bind fun longer =>
                rewriteLoop capacity authority preserveSensitive names budget rest longer true
            else if preserveSensitive = false ∧ carriesCredentials names line then
              rewriteLoop capacity authority preserveSensitive names budget rest output replacedHost
            else
              (appendWithin capacity output (line ++ crlf)).bind fun longer =>
                rewriteLoop capacity authority preserveSensitive names budget rest longer
                  replacedHost

/-- The request line of a redirected request. -/
def redirectedRequestLine (target : Bytes) : Bytes := ascii "GET " ++ target ++ ascii " HTTP/1.0"

/-- The size of the buffer for a redirected request. -/
def rewriteCapacity (request : Bytes) (next : Endpoint) : ℕ :=
  request.length + next.target.bytes.length + next.host.bytes.length + 128

/-- The request for the next endpoint, made from the lines of the previous one. Memory for the
output is the caller's matter. -/
def rewriteGetRequestWithPolicy (request : Bytes) (next : Endpoint) (preserveSensitive : Bool)
    (names : Option Bytes) : Option Bytes :=
  match splitInfix crlf request with
  | none => none
  | some (_, headers) =>
      let capacity := rewriteCapacity request next
      match endpointAuthority next authorityCapacity with
      | none => none
      | some authority =>
          (appendWithin capacity [] (redirectedRequestLine next.target.bytes ++ crlf)).bind
            fun output =>
          (rewriteLoop capacity authority preserveSensitive names headers.length headers output
            false).bind fun (output, replacedHost) =>
          (if replacedHost then some output
            else appendWithin capacity output (hostLine authority ++ crlf)).bind fun output =>
          appendWithin capacity output crlf

/-- The rewrite for a redirect that stays at its origin. -/
def rewriteGetRequest (request : Bytes) (next : Endpoint) : Option Bytes :=
  rewriteGetRequestWithPolicy request next true (some [])

/-! ## The lines of a request -/

/-- The header block from a cursor consists of the lines: they stand before the first empty line,
or before the end of the text. -/
inductive HeaderBlock : List Bytes → Bytes → Prop where
  | ended : HeaderBlock [] []
  | blank {cursor rest : Bytes} (cut : splitInfix crlf cursor = some ([], rest)) :
      HeaderBlock [] cursor
  | line {lines : List Bytes} {cursor line rest : Bytes}
      (cut : splitInfix crlf cursor = some (line, rest)) (nonempty : line ≠ [])
      (more : HeaderBlock lines rest) : HeaderBlock (line :: lines) cursor

/-- The header lines of a request: its lines between CRLFs, after the first of them and before
the first empty one. -/
def requestHeaderLines (request : Bytes) : List Bytes :=
  ((cutAll (splitInfix crlf) request).drop 1).takeWhile (· ≠ [])

theorem crlf_ne_nil : crlf ≠ [] := by decide

theorem HeaderBlock.takeWhile_eq {lines : List Bytes} {cursor : Bytes}
    (block : HeaderBlock lines cursor) :
    (cutAll (splitInfix crlf) cursor).takeWhile (· ≠ []) = lines := by
  induction block with
  | ended => rfl
  | blank cut => simp [cutAll_of_some (splitInfix_shortens crlf_ne_nil) cut]
  | line cut nonempty _ ih =>
      rw [cutAll_of_some (splitInfix_shortens crlf_ne_nil) cut,
        List.takeWhile_cons_of_pos (by simpa using nonempty), ih]

/-- The lines of a block are not empty and hold no CRLF. -/
theorem HeaderBlock.lines_cut {lines : List Bytes} {cursor : Bytes}
    (block : HeaderBlock lines cursor) : ∀ line ∈ lines, line ≠ [] ∧ FirstAfter crlf line := by
  induction block with
  | ended => simp
  | blank => simp
  | line cut nonempty _ ih =>
      intro line member
      rcases List.mem_cons.mp member with rfl | later
      · exact ⟨nonempty, (splitInfix_eq_some crlf_ne_nil cut).2⟩
      · exact ih line later

theorem HeaderBlock.length_le {lines : List Bytes} {cursor : Bytes}
    (block : HeaderBlock lines cursor) : (joinLines crlf lines).length ≤ cursor.length := by
  induction block with
  | ended => exact le_rfl
  | blank => exact Nat.zero_le _
  | line cut _ _ ih =>
      obtain ⟨rfl, _⟩ := splitInfix_eq_some crlf_ne_nil cut
      simp only [joinLines_cons, List.length_append]
      omega

theorem headerBlock_nil_iff {lines : List Bytes} : HeaderBlock lines [] ↔ lines = [] := by
  constructor
  · intro block
    cases block with
    | ended => rfl
    | blank cut => cases cut
    | line cut _ _ => cases cut
  · rintro rfl
    exact .ended

/-- The block from a cursor that is cut into a line and a rest. -/
theorem headerBlock_of_cut {lines : List Bytes} {cursor line rest : Bytes}
    (cut : splitInfix crlf cursor = some (line, rest)) :
    HeaderBlock lines cursor ↔
      (line = [] ∧ lines = []) ∨
        (line ≠ [] ∧ ∃ more, lines = line :: more ∧ HeaderBlock more rest) := by
  constructor
  · intro block
    cases block with
    | ended => cases cut
    | blank other =>
        obtain ⟨rfl, rfl⟩ := Prod.mk.inj (Option.some.inj (cut.symm.trans other))
        exact Or.inl ⟨rfl, rfl⟩
    | line other nonempty more =>
        obtain ⟨rfl, rfl⟩ := Prod.mk.inj (Option.some.inj (cut.symm.trans other))
        exact Or.inr ⟨nonempty, _, rfl, more⟩
  · rintro (⟨rfl, rfl⟩ | ⟨nonempty, more, rfl, block⟩)
    · exact .blank cut
    · exact .line cut nonempty block

/-- Lines that are not empty, with an empty one after them, are a block. -/
theorem headerBlock_joinLines {lines : List Bytes}
    (cuts : ∀ line ∈ lines, line ≠ [] ∧ FirstAfter crlf line) :
    HeaderBlock lines (joinLines crlf lines ++ crlf) := by
  induction lines with
  | nil => exact .blank rfl
  | cons line lines ih =>
      obtain ⟨nonempty, first⟩ := cuts line List.mem_cons_self
      refine .line ?_ nonempty
        (ih fun other member => cuts other (List.mem_cons_of_mem line member))
      rw [joinLines_cons, List.append_assoc]
      exact splitInfix_append first _

/-- The request has a first line, and a header block after it. -/
def HeadersComplete (request : Bytes) : Prop :=
  ∃ first headers, splitInfix crlf request = some (first, headers) ∧
    HeaderBlock (requestHeaderLines request) headers

theorem requestHeaderLines_eq {request first headers : Bytes} {lines : List Bytes}
    (cut : splitInfix crlf request = some (first, headers)) (block : HeaderBlock lines headers) :
    requestHeaderLines request = lines := by
  rw [requestHeaderLines, cutAll_of_some (splitInfix_shortens crlf_ne_nil) cut, List.drop_one,
    List.tail_cons]
  exact block.takeWhile_eq

theorem HeadersComplete.lines_cut {request : Bytes} (complete : HeadersComplete request) :
    ∀ line ∈ requestHeaderLines request, line ≠ [] ∧ FirstAfter crlf line := by
  obtain ⟨_, _, _, block⟩ := complete
  exact block.lines_cut

/-- A text without an LF holds no CRLF. -/
theorem firstAfter_crlf {text : Bytes} (noLf : lf ∉ text) : FirstAfter crlf text := by
  have absent : lf ∉ text ++ [cr] := by
    rw [List.mem_append, not_or]
    exact ⟨noLf, by decide⟩
  exact FirstAfter.of_not_mem absent

/-! ## A rewrite as an edit of lines -/

/-- A line named `Host`. -/
def isHostLine (line : Bytes) : Bool := headerLineNamed line (ascii "Host")

/-- What a rewrite makes of a header line: a `Host` line is replaced, and a line of credentials is
left out unless these are preserved. -/
def editLine (authority : Bytes) (preserveSensitive : Bool) (names : Option Bytes)
    (line : Bytes) : Option Bytes :=
  if isHostLine line then some (hostLine authority)
  else if preserveSensitive = false ∧ carriesCredentials names line then none
  else some line

/-- The header lines of a redirected request. -/
def redirectedLines (authority : Bytes) (preserveSensitive : Bool) (names : Option Bytes)
    (lines : List Bytes) : List Bytes :=
  lines.filterMap (editLine authority preserveSensitive names) ++
    if lines.any isHostLine then [] else [hostLine authority]

/-- The text of a request with the given target and header lines. -/
def redirectedRequest (target : Bytes) (lines : List Bytes) : Bytes :=
  joinLines crlf (redirectedRequestLine target :: lines) ++ crlf

theorem appendWithin_eq_some_iff {capacity : ℕ} {output piece longer : Bytes} :
    appendWithin capacity output piece = some longer ↔
      longer = output ++ piece ∧ longer.length < capacity := by
  unfold appendWithin
  split
  · rename_i full
    simp only [reduceCtorEq, false_iff, not_and]
    rintro rfl
    rw [List.length_append]
    omega
  · rename_i room
    rw [Option.some.injEq]
    constructor
    · rintro rfl
      rw [List.length_append]
      exact ⟨rfl, by omega⟩
    · exact fun holds => holds.1.symm

/-- One round of the loop edits one line. -/
theorem rewriteLoop_cut {capacity budget : ℕ} {authority cursor line rest output : Bytes}
    {preserve replaced : Bool} {names : Option Bytes} {result : Bytes × Bool}
    (cut : splitInfix crlf cursor = some (line, rest)) (nonempty : line ≠ [])
    (room : output.length < capacity) :
    rewriteLoop capacity authority preserve names (budget + 1) cursor output replaced =
      some result ↔
      ∃ longer, longer = output ++ joinLines crlf (editLine authority preserve names line).toList ∧
        longer.length < capacity ∧
        rewriteLoop capacity authority preserve names budget rest longer
          (replaced || isHostLine line) = some result := by
  have present : cursor ≠ [] := by
    rintro rfl
    cases cut
  rw [rewriteLoop, if_neg present]
  simp only [cut, if_neg nonempty]
  by_cases host : isHostLine line = true
  · have host' : headerLineNamed line (ascii "Host") = true := host
    simp only [host', if_true, editLine, host, Option.toList_some, joinLines_cons, joinLines_nil,
      List.append_nil, Bool.or_true, Option.bind_eq_some_iff, appendWithin_eq_some_iff, and_assoc]
  · have host' : ¬ headerLineNamed line (ascii "Host") = true := host
    simp only [if_neg host', editLine, if_neg host, Bool.not_eq_true] at host ⊢
    split
    · simp only [Option.toList_none, joinLines_nil, List.append_nil, host, Bool.or_false]
      exact ⟨fun holds => ⟨output, rfl, room, holds⟩, fun ⟨_, same, _, holds⟩ => same ▸ holds⟩
    · simp only [Option.toList_some, joinLines_cons, joinLines_nil, List.append_nil, host,
        Bool.or_false, Option.bind_eq_some_iff, appendWithin_eq_some_iff, and_assoc]

/-- The output after the header block from a cursor was edited and added to it, and whether a
`Host` line was replaced by then. -/
def EditedBlock (authority : Bytes) (preserveSensitive : Bool) (names : Option Bytes)
    (cursor output : Bytes) (replacedHost : Bool) (written : Bytes) (flag : Bool) : Prop :=
  ∃ lines, HeaderBlock lines cursor ∧
    written = output ++ joinLines crlf
      (lines.filterMap (editLine authority preserveSensitive names)) ∧
    flag = (replacedHost || lines.any isHostLine)

section EditedBlock

variable {authority cursor output written : Bytes} {preserve replaced flag : Bool}
  {names : Option Bytes}

/-- A block without lines leaves the output as it is. -/
theorem editedBlock_of_noLines (noLines : ∀ lines, HeaderBlock lines cursor ↔ lines = []) :
    EditedBlock authority preserve names cursor output replaced written flag ↔
      output = written ∧ replaced = flag := by
  simp only [EditedBlock, noLines, exists_eq_left, List.filterMap_nil, joinLines_nil,
    List.append_nil, List.any_nil, Bool.or_false]
  exact and_congr eq_comm eq_comm

/-- The first line of a block is edited before the others. -/
theorem editedBlock_of_cut {line rest : Bytes} (cut : splitInfix crlf cursor = some (line, rest))
    (nonempty : line ≠ []) :
    EditedBlock authority preserve names cursor output replaced written flag ↔
      EditedBlock authority preserve names rest
        (output ++ joinLines crlf (editLine authority preserve names line).toList)
        (replaced || isHostLine line) written flag := by
  constructor
  · rintro ⟨lines, block, rfl, rfl⟩
    rcases (headerBlock_of_cut cut).mp block with ⟨empty, _⟩ | ⟨_, more, rfl, others⟩
    · exact absurd empty nonempty
    · refine ⟨more, others, ?_, ?_⟩
      · rw [joinLines_filterMap_cons, List.append_assoc]
      · rw [List.any_cons, Bool.or_assoc]
  · rintro ⟨more, block, rfl, rfl⟩
    refine ⟨line :: more, .line cut nonempty block, ?_, ?_⟩
    · rw [joinLines_filterMap_cons, List.append_assoc]
    · rw [List.any_cons, Bool.or_assoc]

/-- A text without a CRLF is no header block. -/
theorem not_editedBlock_of_uncut (filled : cursor ≠ []) (uncut : splitInfix crlf cursor = none) :
    ¬ EditedBlock authority preserve names cursor output replaced written flag := by
  rintro ⟨lines, block, _⟩
  cases block with
  | ended => exact filled rfl
  | blank other => cases uncut.symm.trans other
  | line other _ _ => cases uncut.symm.trans other

/-- Editing only adds to the output. -/
theorem EditedBlock.length_le
    (edited : EditedBlock authority preserve names cursor output replaced written flag) :
    output.length ≤ written.length := by
  obtain ⟨_, _, rfl, _⟩ := edited
  rw [List.length_append]
  exact Nat.le_add_right _ _

/-- **The loop edits the lines of the block**, as long as the output fits. -/
theorem rewriteLoop_eq_some_iff {capacity budget : ℕ} (enough : cursor.length ≤ budget)
    (room : output.length < capacity) :
    rewriteLoop capacity authority preserve names budget cursor output replaced =
        some (written, flag) ↔
      EditedBlock authority preserve names cursor output replaced written flag ∧
        written.length < capacity := by
  -- where the block has no lines the loop stops
  have stopped : ∀ {cursor output : Bytes} {replaced : Bool}, output.length < capacity →
      (∀ lines, HeaderBlock lines cursor ↔ lines = []) →
      (some (output, replaced) = some (written, flag) ↔
        EditedBlock authority preserve names cursor output replaced written flag ∧
          written.length < capacity) := by
    intro cursor output replaced room noLines
    rw [editedBlock_of_noLines noLines, Option.some.injEq, Prod.mk.injEq]
    exact ⟨fun same => ⟨same, same.1 ▸ room⟩, fun holds => holds.1⟩
  induction budget generalizing cursor output replaced with
  | zero =>
      obtain rfl := List.length_eq_zero_iff.mp (Nat.le_zero.mp enough)
      exact stopped room fun _ => headerBlock_nil_iff
  | succ budget ih =>
      by_cases empty : cursor = []
      · subst empty
        rw [rewriteLoop, if_pos rfl]
        exact stopped room fun _ => headerBlock_nil_iff
      · cases cut : splitInfix crlf cursor with
        | none =>
            rw [rewriteLoop, if_neg empty]
            simp only [cut, reduceCtorEq, not_editedBlock_of_uncut empty cut, false_and]
        | some parts =>
            obtain ⟨line, rest⟩ := parts
            have less := splitInfix_shortens crlf_ne_nil _ _ _ cut
            by_cases blank : line = []
            · rw [rewriteLoop, if_neg empty]
              simp only [cut, if_pos blank]
              refine stopped room fun lines => ?_
              rw [headerBlock_of_cut cut]
              simp [blank]
            · rw [rewriteLoop_cut cut blank room, editedBlock_of_cut cut blank]
              have enoughLeft : rest.length ≤ budget := by omega
              constructor
              · rintro ⟨longer, rfl, fits, continued⟩
                exact (ih enoughLeft fits).mp continued
              · rintro ⟨edited, within⟩
                have fits := lt_of_le_of_lt edited.length_le within
                exact ⟨_, rfl, fits, (ih enoughLeft fits).mpr ⟨edited, within⟩⟩

end EditedBlock

theorem appendHost_eq_some_iff {capacity : ℕ} {authority output longer : Bytes} {replaced : Bool}
    (room : output.length < capacity) :
    (if replaced then some output else appendWithin capacity output (hostLine authority ++ crlf)) =
        some longer ↔
      longer = output ++ joinLines crlf (if replaced then [] else [hostLine authority]) ∧
        longer.length < capacity := by
  cases replaced with
  | true =>
      simp only [if_true, Option.some.injEq, joinLines_nil, List.append_nil]
      exact ⟨fun same => ⟨same.symm, same ▸ room⟩, fun holds => holds.1.symm⟩
  | false =>
      simp only [Bool.false_eq_true, if_false, appendWithin_eq_some_iff, joinLines_cons,
        joinLines_nil, List.append_nil]

/-- **A rewrite edits the header lines of a complete request**, and fails when the endpoint has no
authority or the text does not fit. -/
theorem rewriteGetRequestWithPolicy_eq_some_iff {request output : Bytes} {next : Endpoint}
    {preserve : Bool} {names : Option Bytes} :
    rewriteGetRequestWithPolicy request next preserve names = some output ↔
      HeadersComplete request ∧
        ∃ authority, endpointAuthority next authorityCapacity = some authority ∧
          output = redirectedRequest next.target.bytes
            (redirectedLines authority preserve names (requestHeaderLines request)) ∧
          output.length < rewriteCapacity request next := by
  unfold rewriteGetRequestWithPolicy HeadersComplete
  cases cut : splitInfix crlf request with
  | none => simp
  | some parts =>
      obtain ⟨first, headers⟩ := parts
      cases found : endpointAuthority next authorityCapacity with
      | none => simp
      | some authority =>
          simp only [Option.bind_eq_some_iff, Prod.exists, appendWithin_eq_some_iff,
            List.nil_append]
          constructor
          · rintro ⟨_, ⟨rfl, room⟩, edited, replaced, looped, hosted, added, rfl, within⟩
            obtain ⟨⟨lines, block, rfl, rfl⟩, room'⟩ :=
              (rewriteLoop_eq_some_iff le_rfl room).mp looped
            obtain ⟨rfl, _⟩ := (appendHost_eq_some_iff room').mp added
            obtain rfl := requestHeaderLines_eq cut block
            refine ⟨⟨first, headers, rfl, block⟩, authority, rfl, ?_, within⟩
            simp only [redirectedRequest, redirectedLines, joinLines_cons, joinLines_append,
              List.append_assoc, Bool.false_or]
          · rintro ⟨⟨_, _, same, block⟩, _, same', rfl, within⟩
            obtain ⟨rfl, rfl⟩ := Prod.mk.inj (Option.some.inj same)
            obtain rfl := Option.some.inj same'
            have lengths := within
            simp only [redirectedRequest, redirectedLines, joinLines_cons, joinLines_append,
              List.length_append] at lengths
            refine ⟨_, ⟨rfl, by rw [List.length_append]; omega⟩, _, _,
              (rewriteLoop_eq_some_iff le_rfl (by rw [List.length_append]; omega)).mpr
                ⟨⟨_, block, rfl, rfl⟩, by simp only [List.length_append]; omega⟩, _,
              (appendHost_eq_some_iff (by simp only [List.length_append]; omega)).mpr
                ⟨rfl, by simp only [List.length_append, Bool.false_or]; omega⟩, ?_, within⟩
            simp only [redirectedRequest, redirectedLines, joinLines_cons, joinLines_append,
              List.append_assoc, Bool.false_or]

end IcuTransport.Redirect
