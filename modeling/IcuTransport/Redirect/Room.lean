import IcuTransport.Library.Trace
import IcuTransport.Redirect.Authority

/-!
# The room of a redirected request

A redirected request is written into a buffer of a size that is computed beforehand. This module
follows the writes themselves: `rewriteGetRequestTraced` is the rewriter with a record of where each
`snprintf` and each `memcpy` stores bytes. Its value is that of the rewriter
(`value_rewriteGetRequestTraced`), and no write leaves the buffer, whatever the request
(`rewriteGetRequestTraced_within`).

What is written is the edit of the header lines, in terms of their names (`editedLines`).
-/

set_option autoImplicit false

namespace IcuTransport.Redirect

open Ascii TextScan Wire Tracing

/-! ## The writes -/

/-- Bytes stored in the output buffer: where, and how many. -/
structure BufferWrite where
  start : ℕ
  count : ℕ
  deriving DecidableEq, Repr

/-- Print a piece after the output. `snprintf` stores it with a terminator, or as much of it as
there is room for. -/
def printWithin (capacity : ℕ) (output piece : Bytes) : Traced BufferWrite (Option Bytes) := do
  Traced.emit ⟨output.length, min (piece.length + 1) (capacity - output.length)⟩
  pure (appendWithin capacity output piece)

/-- Copy a line after the output, then the end of the line and a terminator. -/
def copyLineWithin (capacity : ℕ) (output line : Bytes) : Traced BufferWrite (Option Bytes) :=
  if line.length + 2 ≥ capacity - output.length then pure none
  else do
    Traced.emit ⟨output.length, line.length⟩
    Traced.emit ⟨output.length + line.length, 2⟩
    Traced.emit ⟨output.length + line.length + 2, 1⟩
    pure (some (output ++ (line ++ crlf)))

/-- Copy the empty line at the end, with its terminator. -/
def endWithin (capacity : ℕ) (output : Bytes) : Traced BufferWrite (Option Bytes) :=
  if output.length + 2 ≥ capacity then pure none
  else do
    Traced.emit ⟨output.length, 3⟩
    pure (some (output ++ crlf))

/-- The loop of `rewrite_get_request_with_policy`, with its writes. -/
def rewriteLoopTraced (capacity : ℕ) (authority : Bytes) (preserveSensitive : Bool)
    (names : Option Bytes) :
    ℕ → Bytes → Bytes → Bool → Traced BufferWrite (Option (Bytes × Bool))
  | 0, _, output, replacedHost => pure (some (output, replacedHost))
  | budget + 1, cursor, output, replacedHost =>
      if cursor = [] then pure (some (output, replacedHost))
      else
        match splitInfix crlf cursor with
        | none => pure none
        | some (line, rest) =>
            if line = [] then pure (some (output, replacedHost))
            else if headerLineNamed line (ascii "Host") then
              (printWithin capacity output (hostLine authority ++ crlf)).andThen fun longer =>
                rewriteLoopTraced capacity authority preserveSensitive names budget rest longer true
            else if preserveSensitive = false ∧ carriesCredentials names line then
              rewriteLoopTraced capacity authority preserveSensitive names budget rest output
                replacedHost
            else
              (copyLineWithin capacity output line).andThen fun longer =>
                rewriteLoopTraced capacity authority preserveSensitive names budget rest longer
                  replacedHost

/-- The request for the next endpoint, with the writes into its buffer. -/
def rewriteGetRequestTraced (request : Bytes) (next : Endpoint) (preserveSensitive : Bool)
    (names : Option Bytes) : Traced BufferWrite (Option Bytes) :=
  match splitInfix crlf request with
  | none => pure none
  | some (_, headers) =>
      let capacity := rewriteCapacity request next
      match endpointAuthority next authorityCapacity with
      | none => pure none
      | some authority =>
          (printWithin capacity [] (redirectedRequestLine next.target.bytes ++ crlf)).andThen
            fun output =>
          (rewriteLoopTraced capacity authority preserveSensitive names headers.length headers
            output
            false).andThen fun (output, replacedHost) =>
          (if replacedHost then pure (some output)
            else printWithin capacity output (hostLine authority ++ crlf)).andThen fun output =>
          endWithin capacity output

/-! ## The same text -/

theorem value_printWithin (capacity : ℕ) (output piece : Bytes) :
    (printWithin capacity output piece).value = appendWithin capacity output piece := rfl

theorem value_copyLineWithin (capacity : ℕ) (output line : Bytes) :
    (copyLineWithin capacity output line).value = appendWithin capacity output (line ++ crlf) := by
  have length : (line ++ crlf).length = line.length + 2 := List.length_append
  unfold copyLineWithin appendWithin
  rw [length]
  split
  · rfl
  · rfl

theorem value_endWithin (capacity : ℕ) (output : Bytes) :
    (endWithin capacity output).value = appendWithin capacity output crlf := by
  have length : crlf.length = 2 := rfl
  unfold endWithin appendWithin
  rw [length]
  by_cases full : output.length + 2 ≥ capacity
  · rw [if_pos full, if_pos (by omega)]
    rfl
  · rw [if_neg full, if_neg (by omega)]
    rfl

theorem value_rewriteLoopTraced (capacity : ℕ) (authority : Bytes) (preserve : Bool)
    (names : Option Bytes) (budget : ℕ) (cursor output : Bytes) (replaced : Bool) :
    (rewriteLoopTraced capacity authority preserve names budget cursor output replaced).value =
      rewriteLoop capacity authority preserve names budget cursor output replaced := by
  induction budget generalizing cursor output replaced with
  | zero => rfl
  | succ budget ih =>
      rw [rewriteLoopTraced, rewriteLoop]
      split
      · rfl
      · cases splitInfix crlf cursor with
        | none => rfl
        | some parts =>
            obtain ⟨line, rest⟩ := parts
            dsimp only
            split
            · rfl
            · split
              · rw [Traced.value_andThen, value_printWithin]
                simp only [ih]
              · split
                · exact ih rest output replaced
                · rw [Traced.value_andThen, value_copyLineWithin]
                  simp only [ih]

/-- **The traced rewriter gives the text of the rewriter.** -/
theorem value_rewriteGetRequestTraced (request : Bytes) (next : Endpoint) (preserve : Bool)
    (names : Option Bytes) :
    (rewriteGetRequestTraced request next preserve names).value =
      rewriteGetRequestWithPolicy request next preserve names := by
  unfold rewriteGetRequestTraced rewriteGetRequestWithPolicy
  cases splitInfix crlf request with
  | none => rfl
  | some parts =>
      dsimp only
      cases endpointAuthority next authorityCapacity with
      | none => rfl
      | some authority =>
          simp only [Traced.value_andThen, value_printWithin, value_rewriteLoopTraced,
            value_endWithin]
          refine congrArg _ (funext fun output => congrArg _ (funext fun looped => ?_))
          cases looped.2 with
          | true => rfl
          | false => rfl

/-! ## Every write stays within the buffer -/

/-- The write ends within the buffer. -/
def BufferWrite.Within (capacity : ℕ) (write : BufferWrite) : Prop :=
  write.start + write.count ≤ capacity

theorem printWithin_within {capacity : ℕ} {output piece : Bytes} (room : output.length ≤ capacity) :
    Traced.Emits (BufferWrite.Within capacity) (printWithin capacity output piece) := by
  refine .emit_bind ?_ (.pure _)
  simp only [BufferWrite.Within]
  omega

theorem copyLineWithin_within {capacity : ℕ} {output line : Bytes} :
    Traced.Emits (BufferWrite.Within capacity) (copyLineWithin capacity output line) := by
  unfold copyLineWithin
  split
  · exact .pure _
  · refine .emit_bind ?_ (.emit_bind ?_ (.emit_bind ?_ (.pure _)))
    · simp only [BufferWrite.Within]
      omega
    · simp only [BufferWrite.Within]
      omega
    · simp only [BufferWrite.Within]
      omega

theorem endWithin_within {capacity : ℕ} {output : Bytes} :
    Traced.Emits (BufferWrite.Within capacity) (endWithin capacity output) := by
  unfold endWithin
  split
  · exact .pure _
  · refine .emit_bind ?_ (.pure _)
    simp only [BufferWrite.Within]
    omega

/-- What was appended leaves room for its terminator. -/
theorem length_of_appendWithin {capacity : ℕ} {output piece longer : Bytes}
    (appended : appendWithin capacity output piece = some longer) : longer.length < capacity :=
  (appendWithin_eq_some_iff.mp appended).2

/-- The rounds of the loop write within the buffer, and what they leave fits it. -/
structure RoundsWithin (capacity : ℕ) (rounds : Traced BufferWrite (Option (Bytes × Bool))) :
    Prop where
  writes : ∀ write ∈ rounds.events, write.Within capacity
  fits : ∀ written flag, rounds.value = some (written, flag) → written.length < capacity

namespace RoundsWithin

variable {capacity : ℕ} {output : Bytes}

theorem refused : RoundsWithin capacity (pure none) := by
  refine ⟨Traced.Emits.pure _, ?_⟩
  rintro written flag ⟨⟩

theorem stopped (room : output.length < capacity) (flag : Bool) :
    RoundsWithin capacity (pure (some (output, flag))) := by
  refine ⟨Traced.Emits.pure _, ?_⟩
  rintro written flag ⟨⟩
  exact room

/-- A piece that was added, and the rounds after it. -/
theorem andThen {first : Traced BufferWrite (Option Bytes)} {piece : Bytes}
    {next : Bytes → Traced BufferWrite (Option (Bytes × Bool))}
    (value : first.value = appendWithin capacity output piece)
    (within : Traced.Emits (BufferWrite.Within capacity) first)
    (later : ∀ longer, longer.length < capacity → RoundsWithin capacity (next longer)) :
    RoundsWithin capacity (first.andThen next) := by
  have rounds : ∀ longer, first.value = some longer → RoundsWithin capacity (next longer) := by
    intro longer added
    rw [value] at added
    exact later longer (length_of_appendWithin added)
  constructor
  · exact within.andThen fun longer added => (rounds longer added).writes
  · intro written flag result
    rw [Traced.value_andThen] at result
    obtain ⟨longer, added, result⟩ := Option.bind_eq_some_iff.mp result
    exact (rounds longer added).fits written flag result

end RoundsWithin

/-- The writes of the loop stay within the buffer, and so does its output. -/
theorem rewriteLoopTraced_within {capacity : ℕ} {authority : Bytes} {preserve : Bool}
    {names : Option Bytes} {budget : ℕ} {cursor output : Bytes} {replaced : Bool}
    (room : output.length < capacity) :
    RoundsWithin capacity
      (rewriteLoopTraced capacity authority preserve names budget cursor output replaced) := by
  induction budget generalizing cursor output replaced with
  | zero => exact .stopped room replaced
  | succ budget ih =>
      rw [rewriteLoopTraced]
      split
      · exact .stopped room replaced
      · cases splitInfix crlf cursor with
        | none => exact .refused
        | some parts =>
            obtain ⟨line, rest⟩ := parts
            dsimp only
            split
            · exact .stopped room replaced
            · split
              · exact .andThen (value_printWithin _ _ _) (printWithin_within room.le)
                  fun longer fits => ih fits
              · split
                · exact ih room
                · exact .andThen (value_copyLineWithin _ _ _) copyLineWithin_within
                    fun longer fits => ih fits

/-- **No write leaves the buffer.** -/
theorem rewriteGetRequestTraced_within (request : Bytes) (next : Endpoint) (preserve : Bool)
    (names : Option Bytes) :
    Traced.Emits (BufferWrite.Within (rewriteCapacity request next))
      (rewriteGetRequestTraced request next preserve names) := by
  unfold rewriteGetRequestTraced
  cases splitInfix crlf request with
  | none => exact .pure _
  | some parts =>
      obtain ⟨line, headers⟩ := parts
      cases endpointAuthority next authorityCapacity with
      | none => exact .pure _
      | some authority =>
          refine (printWithin_within (Nat.zero_le _)).andThen fun output printed => ?_
          have loop : RoundsWithin (rewriteCapacity request next)
              (rewriteLoopTraced (rewriteCapacity request next) authority preserve names
                headers.length headers output false) :=
            rewriteLoopTraced_within (length_of_appendWithin printed)
          refine Traced.Emits.andThen loop.writes fun edited looped => ?_
          refine Traced.Emits.andThen ?_ fun hosted _ => endWithin_within
          split
          · exact .pure _
          · exact printWithin_within (loop.fits _ _ looped).le

/-! ## What is written -/

/-- The authority of an endpoint: its host, and its port where that is not the default of the
scheme. -/
def writtenAuthority (endpoint : Endpoint) : Bytes :=
  if endpoint.port = Int32.ofNat (schemePort endpoint.useTls) then endpoint.host.bytes
  else endpoint.host.bytes ++ colon :: decimalInt endpoint.port.toInt

/-- A line is withheld from another origin: its name is `Authorization`, `Cookie` or one of the
list. -/
def Withheld (names line : Bytes) : Prop :=
  Named (ascii "Authorization") line ∨ Named (ascii "Cookie") line ∨
    ∃ name ∈ separated lf names, Named name line

instance (names line : Bytes) : Decidable (Withheld names line) :=
  inferInstanceAs (Decidable (_ ∨ _ ∨ _))

/-- The header lines after an edit in terms of their names: lines are withheld unless all of them
are preserved, the `Host` line is replaced in its place, and is added where there was none. -/
def editedLines (authority : Bytes) (preserveSensitive : Bool) (names : Bytes)
    (lines : List Bytes) : List Bytes :=
  let kept := lines.filter fun line => preserveSensitive = true ∨ ¬ Withheld names line
  kept.map (fun line => if Named (ascii "Host") line then hostLine authority else line) ++
    if ∃ line ∈ lines, Named (ascii "Host") line then [] else [hostLine authority]

/-- The names of a list are names of header lines other than `Host`. -/
def OtherNames (names : Bytes) : Prop :=
  ∀ name ∈ separated lf names,
    name ≠ [] ∧ colon ∉ name ∧ foldCase name ≠ foldCase (ascii "Host")

/-- An endpoint with a host, or with a port to write, has an authority. -/
theorem endpointAuthority_eq_written {endpoint : Endpoint}
    (named : endpoint.host.bytes ≠ [] ∨
      endpoint.port ≠ Int32.ofNat (schemePort endpoint.useTls)) :
    endpointAuthority endpoint authorityCapacity = some (writtenAuthority endpoint) := by
  have default : (if endpoint.useTls then (443 : Int32) else 80) =
      Int32.ofNat (schemePort endpoint.useTls) := by
    cases endpoint.useTls with
    | true => rfl
    | false => rfl
  have fits := endpoint.host.fits
  have digits : (decimalInt endpoint.port.toInt).length ≤ 10 + 1 := by
    have low := endpoint.port.le_toInt
    have high := endpoint.port.toInt_lt
    exact length_decimalInt_le (by decide) (by omega)
  have filled : 0 < (writtenAuthority endpoint).length := by
    unfold writtenAuthority
    split
    · rename_i plain
      exact List.length_pos_of_ne_nil (named.resolve_right fun other => other plain)
    · rw [List.length_append, List.length_cons]
      omega
  have short : (writtenAuthority endpoint).length < authorityCapacity := by
    have room : authorityCapacity = maxHostBytes + 16 := rfl
    unfold writtenAuthority
    split
    · omega
    · rw [List.length_append, List.length_cons]
      omega
  simp only [endpointAuthority, default]
  exact if_pos ⟨filled, short⟩

/-- The code withholds the lines that are to be withheld. -/
theorem carriesCredentials_iff {names : Bytes} (others : OtherNames names) (line : Bytes) :
    carriesCredentials (some names) line = true ↔ Withheld names line := by
  have listed : headerLineNamedInList line (some names) = true ↔
      ∃ name ∈ separated lf names, Named name line := by
    refine (namedInListLoop_eq_true_iff le_rfl).trans (exists_congr fun name => ?_)
    refine and_congr_right fun member => ?_
    obtain ⟨nonempty, noColon, _⟩ := others name member
    rw [headerLineNamed_iff noColon, and_iff_right nonempty]
  simp only [carriesCredentials, Withheld, Bool.or_eq_true, listed, or_assoc,
    headerLineNamed_iff (by decide : colon ∉ ascii "Authorization"),
    headerLineNamed_iff (by decide : colon ∉ ascii "Cookie")]

/-- A `Host` line is never withheld. -/
theorem not_withheld_of_host {names line : Bytes} (others : OtherNames names)
    (host : Named (ascii "Host") line) : ¬ Withheld names line := by
  have same : ∀ {name : Bytes}, Named name line → foldCase name = foldCase (ascii "Host") := by
    intro name named
    exact Option.some.inj (named.symm.trans host)
  rintro (named | named | ⟨name, member, named⟩)
  · exact absurd (same named) (by decide)
  · exact absurd (same named) (by decide)
  · exact (others name member).2.2 (same named)

/-- **The edit of the code is the edit in terms of names.** -/
theorem redirectedLines_eq_editedLines {names : Bytes} (others : OtherNames names)
    (authority : Bytes) (preserve : Bool) (lines : List Bytes) :
    redirectedLines authority preserve (some names) lines =
      editedLines authority preserve names lines := by
  have present : lines.any isHostLine = true ↔ ∃ line ∈ lines, Named (ascii "Host") line := by
    simp only [List.any_eq_true, isHostLine_iff]
  unfold redirectedLines editedLines
  simp only [present]
  congr 1
  rw [← List.filterMap_eq_map, List.filterMap_filter]
  refine List.filterMap_congr fun line _ => ?_
  unfold editLine
  simp only [isHostLine_iff, carriesCredentials_iff others, Function.comp_apply]
  by_cases host : Named (ascii "Host") line
  · have kept := not_withheld_of_host others host
    simp [host, kept]
  · by_cases withheld : preserve = false ∧ Withheld names line
    · simp [host, withheld.1, withheld.2]
    · have kept : preserve = true ∨ ¬ Withheld names line := by
        rwa [not_and_or, Bool.not_eq_false] at withheld
      simp [host, withheld, kept]

/-- **A rewrite is exact and has room.** A complete request with at most one `Host` line is edited
in terms of the names of its lines, for every endpoint that has an authority; and whatever the
input, each write stays within the buffer. -/
theorem rewriteGetRequestWithPolicy_exact (request : Bytes) (next : Endpoint) (preserve : Bool) :
    (HeadersComplete request →
      (requestHeaderLines request).countP (Named (ascii "Host") ·) ≤ 1 →
      (next.host.bytes ≠ [] ∨ next.port ≠ Int32.ofNat (schemePort next.useTls)) →
      ∀ names, OtherNames names →
        rewriteGetRequestWithPolicy request next preserve (some names) =
          some (redirectedRequest next.target.bytes
            (editedLines (writtenAuthority next) preserve names (requestHeaderLines request)))) ∧
      ∀ names,
        (rewriteGetRequestTraced request next preserve names).value =
            rewriteGetRequestWithPolicy request next preserve names ∧
          ∀ write ∈ (rewriteGetRequestTraced request next preserve names).events,
            write.Within (rewriteCapacity request next) := by
  constructor
  · intro complete single named names others
    have single' : (requestHeaderLines request).countP isHostLine ≤ 1 := by
      refine le_of_eq_of_le (List.countP_congr fun line _ => ?_) single
      rw [isHostLine_iff, decide_eq_true_eq]
    rw [rewriteGetRequestWithPolicy_of_single complete (endpointAuthority_eq_written named) single',
      redirectedLines_eq_editedLines others]
  · intro names
    exact ⟨value_rewriteGetRequestTraced request next preserve names,
      rewriteGetRequestTraced_within request next preserve names⟩

/-- A request with a `Host` line and a token. -/
def tokenRequest : Bytes := redirectedRequest (ascii "/a") [ascii "host: a", ascii "X-Token: 1"]

theorem headersComplete_tokenRequest : HeadersComplete tokenRequest := by
  refine headersComplete_redirectedRequest (by decide) fun line member => ?_
  rcases List.mem_pair.mp member with rfl | rfl
  · exact ⟨by decide, firstAfter_crlf (by decide)⟩
  · exact ⟨by decide, firstAfter_crlf (by decide)⟩

/-- The token is withheld, and the `Host` line stays in its place. -/
theorem rewriteGetRequestWithPolicy_exact_token :
    rewriteGetRequestWithPolicy tokenRequest
        ⟨false, 8080, ⟨ascii "other", by decide⟩, ⟨ascii "/next", by decide⟩⟩ false
        (some (ascii "x-token")) =
      some (redirectedRequest (ascii "/next") [ascii "Host: other:8080"]) := by
  refine ((rewriteGetRequestWithPolicy_exact tokenRequest
    ⟨false, 8080, ⟨ascii "other", by decide⟩, ⟨ascii "/next", by decide⟩⟩ false).1
    headersComplete_tokenRequest (by decide) (Or.inl (by decide)) (ascii "x-token") ?_).trans ?_
  · have names : separated lf (ascii "x-token") = [ascii "x-token"] := by decide
    intro name member
    rw [names] at member
    obtain rfl := List.mem_singleton.mp member
    decide
  · decide

/-- No text is made for an endpoint without a host at the default port. -/
theorem rewriteGetRequestWithPolicy_unnamed :
    HeadersComplete tokenRequest ∧
      (requestHeaderLines tokenRequest).countP (Named (ascii "Host") ·) ≤ 1 ∧ OtherNames [] ∧
      rewriteGetRequestWithPolicy tokenRequest
        ⟨false, 80, ⟨[], by decide⟩, ⟨ascii "/next", by decide⟩⟩ true (some []) = none :=
  ⟨headersComplete_tokenRequest, by decide, fun _ member => (List.not_mem_nil member).elim,
    by decide⟩

end IcuTransport.Redirect
