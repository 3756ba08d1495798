import IcuTransport.Library.Ascii
import IcuTransport.Library.Search

/-!
# References and their resolution

A URI reference has a scheme, an authority, a path and a query, of which all but the path may be
missing. `read` takes a text apart by the grammar of RFC 3986 and drops its fragment: a scheme is a
letter and letters, digits, `+`, `-` or `.` before the first colon; an authority stands between two
slashes and the next slash or question mark; a query follows the first question mark.

`transform` resolves a reference against a base as section 5.2.2 of the RFC does, with the merge of
paths of section 5.2.3, and leaves dot segments alone. It never looks into an authority, so
references are over any type of authorities. A `journey` resolves one reference after another, each
against what the one before led to.
-/

set_option autoImplicit false

namespace Uri

open Ascii TextScan

/-! ## References -/

/-- The parts of a reference, without its fragment. -/
structure Reference (α : Type) where
  scheme : Option Bytes
  authority : Option α
  path : Bytes
  query : Option Bytes

/-- An ASCII letter. -/
def isLetter (byte : UInt8) : Bool := (65 ≤ byte && byte ≤ 90) || (97 ≤ byte && byte ≤ 122)

/-- A byte of a scheme after its first letter. -/
def inScheme (byte : UInt8) : Bool :=
  isLetter byte || isDigit byte || byte = 43 || byte = 45 || byte = 46

/-- A text that is a scheme. -/
def isScheme : Bytes → Bool
  | [] => false
  | first :: rest => isLetter first && rest.all inScheme

/-- The scheme a text begins with, and what follows its colon. -/
def splitScheme (text : Bytes) : Option (Bytes × Bytes) :=
  (splitFirst colon text).filter fun parts => isScheme parts.1

/-- A byte that does not end an authority. -/
def inAuthority (byte : UInt8) : Bool := byte ≠ slash && byte ≠ question

/-- The authority after two slashes, and what follows it. -/
def splitAuthority : Bytes → Option Bytes × Bytes
  | first :: second :: rest =>
      if first = slash ∧ second = slash then
        (some (rest.takeWhile inAuthority), rest.dropWhile inAuthority)
      else (none, first :: second :: rest)
  | text => (none, text)

/-- The path and the query of a text. -/
def splitQuery (text : Bytes) : Bytes × Option Bytes :=
  match splitFirst question text with
  | some (path, query) => (path, some query)
  | none => (text, none)

/-- A path and a query as one text. -/
def joinQuery (path : Bytes) (query : Option Bytes) : Bytes :=
  path ++ query.elim [] (question :: ·)

/-- The parts of a text after its scheme. -/
def readHierarchy (scheme : Option Bytes) (text : Bytes) : Reference Bytes where
  scheme := scheme
  authority := (splitAuthority text).1
  path := (splitQuery (splitAuthority text).2).1
  query := (splitQuery (splitAuthority text).2).2

/-- The parts of a text. -/
def read (text : Bytes) : Reference Bytes :=
  let kept := text.takeWhile (· ≠ hash)
  match splitScheme kept with
  | some (scheme, rest) => readHierarchy (some scheme) rest
  | none => readHierarchy none kept

/-! ## Resolution -/

section Resolution

variable {α β : Type}

/-- The same reference with other authorities. -/
def Reference.mapAuthority (reference : Reference α) (change : α → β) : Reference β :=
  { reference with authority := reference.authority.map change }

/-- A relative path after the directory of a base. -/
def merge (base : Reference α) (path : Bytes) : Bytes :=
  if base.authority.isSome ∧ base.path = [] then slash :: path
  else
    match splitLast slash base.path with
    | some (directory, _) => directory ++ slash :: path
    | none => path

/-- The target of a reference that is resolved against a base. -/
def transform (base reference : Reference α) : Reference α :=
  if reference.scheme.isSome then reference
  else if reference.authority.isSome then { reference with scheme := base.scheme }
  else
    { scheme := base.scheme
      authority := base.authority
      path :=
        if reference.path = [] then base.path
        else if reference.path.head? = some slash then reference.path
        else merge base reference.path
      query :=
        if reference.path = [] then reference.query.or base.query
        else reference.query }

end Resolution

/-! ## What is read -/

theorem splitScheme_eq_some_iff {text scheme rest : Bytes} :
    splitScheme text = some (scheme, rest) ↔
      isScheme scheme = true ∧ text = scheme ++ colon :: rest := by
  have noColon : isScheme scheme = true → colon ∉ scheme := by
    intro named member
    cases scheme with
    | nil => cases member
    | cons first others =>
        simp only [isScheme, Bool.and_eq_true, List.all_eq_true] at named
        rcases List.mem_cons.mp member with same | later
        · rw [← same] at named
          exact absurd named.1 (by decide)
        · exact absurd (named.2 colon later) (by decide)
  rw [splitScheme, Option.filter_eq_some_iff, splitFirst_eq_some_iff]
  constructor
  · rintro ⟨⟨split, _⟩, named⟩
    exact ⟨named, split⟩
  · rintro ⟨named, split⟩
    exact ⟨⟨split, noColon named⟩, named⟩

/-- A text that begins with no letter has no scheme. -/
theorem splitScheme_eq_none {first : UInt8} (rest : Bytes) (noLetter : isLetter first = false) :
    splitScheme (first :: rest) = none := by
  refine Option.eq_none_iff_forall_ne_some.mpr fun parts found => ?_
  obtain ⟨scheme, tail⟩ := parts
  obtain ⟨named, split⟩ := splitScheme_eq_some_iff.mp found
  cases scheme with
  | nil => cases named
  | cons letter others =>
      obtain ⟨rfl, _⟩ := List.cons.inj split
      simp only [isScheme, noLetter, Bool.false_and, Bool.false_eq_true] at named

theorem joinQuery_splitQuery (text : Bytes) :
    joinQuery (splitQuery text).1 (splitQuery text).2 = text := by
  unfold splitQuery
  cases cut : splitFirst question text with
  | none => exact List.append_nil text
  | some parts =>
      obtain ⟨path, query⟩ := parts
      exact (splitFirst_eq_some_iff.mp cut).1.symm

/-- A path without a question mark is taken apart from its query again. -/
theorem splitQuery_joinQuery {path : Bytes} (plain : question ∉ path) (query : Option Bytes) :
    splitQuery (joinQuery path query) = (path, query) := by
  cases query with
  | none =>
      have cut : splitFirst question (joinQuery path none) = none := by
        rw [joinQuery, Option.elim_none, List.append_nil]
        exact splitFirst_eq_none_iff.mpr plain
      rw [splitQuery, cut, joinQuery, Option.elim_none, List.append_nil]
  | some query =>
      have cut : splitFirst question (joinQuery path (some query)) = some (path, query) :=
        splitFirst_append_cons plain query
      rw [splitQuery, cut]

/-- The path of a text is what stands before its first question mark. -/
theorem splitQuery_path (text : Bytes) :
    (splitQuery text).1 = text.takeWhile (· ≠ question) := by
  unfold splitQuery
  cases cut : splitFirst question text with
  | none =>
      have absent := splitFirst_eq_none_iff.mp cut
      refine (List.takeWhile_eq_self_iff.mpr fun byte member => ?_).symm
      exact decide_eq_true fun same => absent (same ▸ member)
  | some parts =>
      obtain ⟨path, query⟩ := parts
      obtain ⟨rfl, absent⟩ := splitFirst_eq_some_iff.mp cut
      have kept : ∀ byte ∈ path, decide (byte ≠ question) = true := fun byte member =>
        decide_eq_true fun same => absent (same ▸ member)
      rw [List.takeWhile_append_of_pos kept, List.takeWhile_cons_of_neg (by decide),
        List.append_nil]

/-- A path that is read has no question mark. -/
theorem question_notMem_read (text : Bytes) : question ∉ (read text).path := by
  have plain : ∀ scheme rest, question ∉ (readHierarchy scheme rest).path := by
    intro scheme rest member
    have path : (readHierarchy scheme rest).path =
        (splitAuthority rest).2.takeWhile (· ≠ question) := splitQuery_path _
    rw [path] at member
    exact absurd (List.mem_takeWhile_imp member) (by decide)
  unfold read
  dsimp only
  split
  · exact plain _ _
  · exact plain _ _

theorem splitQuery_of_query (query : Bytes) :
    splitQuery (question :: query) = ([], some query) := by
  have cut : splitFirst question (question :: query) = some ([], query) :=
    splitFirst_eq_some_iff.mpr ⟨rfl, List.not_mem_nil⟩
  rw [splitQuery, cut]

/-- A text that does not begin with its query has a path. -/
theorem splitQuery_path_cons {first : UInt8} (plain : first ≠ question) (rest : Bytes) :
    (splitQuery (first :: rest)).1 = first :: rest.takeWhile (· ≠ question) := by
  rw [splitQuery_path, List.takeWhile_cons_of_pos (by simpa using plain)]

theorem joinQuery_append (first second : Bytes) (query : Option Bytes) :
    joinQuery (first ++ second) query = first ++ joinQuery second query :=
  List.append_assoc _ _ _

theorem splitAuthority_of_slashes (rest : Bytes) :
    splitAuthority (slash :: slash :: rest) =
      (some (rest.takeWhile inAuthority), rest.dropWhile inAuthority) := by
  rw [splitAuthority, if_pos ⟨rfl, rfl⟩]

theorem splitAuthority_of_none {text : Bytes} (none' : (splitAuthority text).1 = none) :
    splitAuthority text = (none, text) := by
  unfold splitAuthority at none' ⊢
  split
  · split
    · rename_i both
      simp only [if_pos both, reduceCtorEq] at none'
    · rfl
  · rfl

/-- An authority is there exactly after two slashes. -/
theorem splitAuthority_isSome_iff (text : Bytes) :
    (splitAuthority text).1.isSome = true ↔ [slash, slash] <+: text := by
  constructor
  · intro found
    unfold splitAuthority at found
    split at found
    · split at found
      · rename_i rest both
        obtain ⟨rfl, rfl⟩ := both
        exact ⟨rest, rfl⟩
      · cases found
    · cases found
  · rintro ⟨rest, rfl⟩
    rw [List.cons_append, List.cons_append, List.nil_append, splitAuthority_of_slashes]
    rfl

/-! ## Bases that are resolved against alike -/

section Bases

variable {α : Type}

/-- The path of a URL with an authority: an empty one is the root. -/
def rootedPath (path : Bytes) : Bytes := if path = [] then [slash] else path

/-- A base with an authority has a directory. -/
theorem merge_of_authority {base : Reference α} (placed : base.authority.isSome = true)
    (path : Bytes) :
    merge base path =
      match splitLast slash (rootedPath base.path) with
      | some (directory, _) => directory ++ slash :: path
      | none => path := by
  unfold merge rootedPath
  by_cases empty : base.path = []
  · rw [if_pos ⟨placed, empty⟩, if_pos empty]
    rfl
  · rw [if_neg fun both => empty both.2, if_neg empty]

theorem rootedPath_rootedPath (path : Bytes) : rootedPath (rootedPath path) = rootedPath path := by
  unfold rootedPath
  split
  · rfl
  · rfl

theorem notMem_merge {byte : UInt8} {base : Reference α} {path : Bytes} (plain : byte ≠ slash)
    (absent : byte ∉ base.path) (absent' : byte ∉ path) : byte ∉ merge base path := by
  have tail : byte ∉ slash :: path := by
    rw [List.mem_cons, not_or]
    exact ⟨plain, absent'⟩
  unfold merge
  split
  · exact tail
  · split
    · rename_i directory _ cut
      rw [(splitLast_eq_some cut).1, List.mem_append, not_or] at absent
      rw [List.mem_append, not_or]
      exact ⟨absent.1, tail⟩
    · exact absent'

/-- **A resolved path has the bytes of the two paths** and slashes. -/
theorem notMem_transform {byte : UInt8} {base reference : Reference α} (plain : byte ≠ slash)
    (absent : byte ∉ base.path) (absent' : byte ∉ reference.path) :
    byte ∉ (transform base reference).path := by
  unfold transform
  split
  · exact absent'
  · split
    · exact absent'
    · dsimp only
      split
      · exact absent
      · split
        · exact absent'
        · exact notMem_merge plain absent absent'

/-- Where references lead, one after another. -/
def journey (base : Reference α) (references : List (Reference α)) : Reference α :=
  references.foldl transform base

theorem journey_concat (base : Reference α) (references : List (Reference α))
    (reference : Reference α) :
    journey base (references ++ [reference]) = transform (journey base references) reference := by
  rw [journey, List.foldl_append]
  rfl

end Bases

end Uri
