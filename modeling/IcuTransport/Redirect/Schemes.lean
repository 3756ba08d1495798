import IcuTransport.Redirect.Authority

/-!
# Locations read as references

The resolution of a location tests for a few beginnings. In terms of the grammar of references these
are a scheme, `http` or `https` in any case, with two slashes after it, or two slashes alone
(`startsHttp_iff`, `startsHttps_iff`), and the parts of a location follow from them
(`read_of_absoluteScheme`, `read_of_relative`).

No test asks for another scheme. A location that begins with one is taken for a relative path of the
current origin, wherever there is room for it (`resolveLocation_otherScheme`).
-/

set_option autoImplicit false

namespace IcuTransport.Redirect

open Ascii TextScan Wire
open Uri (inAuthority)

/-- A location without a scheme, or with one of the two schemes and an authority. -/
def WebLocation (location : Bytes) : Prop :=
  (Uri.read location).scheme = none ∨
    ∃ scheme, (Uri.read location).scheme = some scheme ∧
      (foldCase scheme = ascii "http" ∨ foldCase scheme = ascii "https") ∧
      (Uri.read location).authority.isSome = true

/-! ## Beginnings of a location -/

theorem isLetter_toLower (byte : UInt8) : Uri.isLetter (toLower byte) = Uri.isLetter byte := by
  unfold toLower Uri.isLetter
  grind

/-- A word of letters is a scheme in any case. -/
theorem isScheme_of_foldCase {scheme word : Bytes} (same : foldCase scheme = foldCase word)
    (filled : word ≠ []) (letters : word.all Uri.isLetter = true) :
    Uri.isScheme scheme = true := by
  have all : ∀ byte ∈ scheme, Uri.isLetter byte = true := by
    intro byte member
    have folded : toLower byte ∈ foldCase word := same ▸ List.mem_map_of_mem member
    obtain ⟨letter, within, equal⟩ := List.mem_map.mp folded
    rw [← isLetter_toLower, ← equal, isLetter_toLower]
    exact List.all_eq_true.mp letters letter within
  cases scheme with
  | nil =>
      have lengths := congrArg List.length same
      rw [length_foldCase, length_foldCase] at lengths
      exact absurd (List.length_eq_zero_iff.mp lengths.symm) filled
  | cons first rest =>
      simp only [Uri.isScheme, Bool.and_eq_true, List.all_eq_true]
      refine ⟨all first List.mem_cons_self, fun byte member => ?_⟩
      simp [Uri.inScheme, all byte (List.mem_cons_of_mem _ member)]

/-- **A text begins with a scheme and two slashes** exactly when it begins so when case is
ignored. -/
theorem startsIgnoringCase_scheme_iff {word text : Bytes} (filled : word ≠ [])
    (letters : word.all Uri.isLetter = true) :
    startsIgnoringCase (word ++ ascii "://") text = true ↔
      ∃ scheme rest, foldCase scheme = foldCase word ∧
        Uri.splitScheme text = some (scheme, slash :: slash :: rest) := by
  have folded : foldCase (word ++ ascii "://") = foldCase word ++ ascii "://" := List.map_append
  rw [startsIgnoringCase_iff, folded]
  constructor
  · rintro ⟨start, rest, rfl, same⟩
    obtain ⟨scheme, marks, rfl, named, marked⟩ := List.map_eq_append_iff.mp same
    obtain rfl := (foldCase_eq_iff (by decide)).mp marked
    refine ⟨scheme, rest, named, Uri.splitScheme_eq_some_iff.mpr
      ⟨isScheme_of_foldCase named filled letters, ?_⟩⟩
    rw [List.append_assoc]
    rfl
  · rintro ⟨scheme, rest, same, found⟩
    obtain ⟨_, rfl⟩ := Uri.splitScheme_eq_some_iff.mp found
    refine ⟨scheme ++ ascii "://", rest, ?_, ?_⟩
    · rw [List.append_assoc]
      rfl
    · exact List.map_append.trans (congrArg (· ++ ascii "://") same)

/-- What follows a scheme of a known length and two slashes. -/
theorem drop_of_splitScheme {text scheme rest word : Bytes}
    (found : Uri.splitScheme text = some (scheme, slash :: slash :: rest))
    (same : foldCase scheme = word) : text.drop (word.length + 3) = rest := by
  obtain ⟨_, rfl⟩ := Uri.splitScheme_eq_some_iff.mp found
  rw [← same, length_foldCase, ← List.drop_drop, List.drop_left]
  rfl

/-- The text begins with `http` and two slashes, in any case. -/
theorem startsHttp_iff {text : Bytes} :
    startsIgnoringCase (ascii "http://") text = true ↔
      ∃ scheme rest, foldCase scheme = ascii "http" ∧
        Uri.splitScheme text = some (scheme, slash :: slash :: rest) :=
  @startsIgnoringCase_scheme_iff (ascii "http") text (by decide) (by decide)

/-- The text begins with `https` and two slashes, in any case. -/
theorem startsHttps_iff {text : Bytes} :
    startsIgnoringCase (ascii "https://") text = true ↔
      ∃ scheme rest, foldCase scheme = ascii "https" ∧
        Uri.splitScheme text = some (scheme, slash :: slash :: rest) :=
  @startsIgnoringCase_scheme_iff (ascii "https") text (by decide) (by decide)

/-- A reference with an authority right before a text. -/
def authorityReference (scheme : Option Bytes) (rest : Bytes) : Uri.Reference Bytes where
  scheme := scheme
  authority := some (rest.takeWhile inAuthority)
  path := (Uri.splitQuery (rest.dropWhile inAuthority)).1
  query := (Uri.splitQuery (rest.dropWhile inAuthority)).2

theorem readHierarchy_of_slashes (scheme : Option Bytes) (rest : Bytes) :
    Uri.readHierarchy scheme (slash :: slash :: rest) = authorityReference scheme rest := by
  unfold Uri.readHierarchy
  rw [Uri.splitAuthority_of_slashes]
  rfl

theorem read_of_splitScheme {raw scheme rest : Bytes}
    (found : Uri.splitScheme (dropFragment raw) = some (scheme, rest)) :
    Uri.read raw = Uri.readHierarchy (some scheme) rest := by
  unfold dropFragment at found
  simp only [Uri.read, found]

theorem read_of_noScheme {raw : Bytes} (absent : Uri.splitScheme (dropFragment raw) = none) :
    Uri.read raw = Uri.readHierarchy none (dropFragment raw) := by
  unfold dropFragment at absent
  simp only [Uri.read, absent, dropFragment]

/-- **The parts of an absolute or scheme-relative location.** -/
theorem read_of_absoluteScheme {raw rest : Bytes} {defaultTls useTls : Bool} {defaultPort : Int32}
    (absolute : absoluteScheme (dropFragment raw) defaultTls = some (useTls, defaultPort, rest)) :
    defaultPort = Int32.ofNat (schemePort useTls) ∧
      ((Uri.read raw = authorityReference none rest ∧ useTls = defaultTls) ∨
        ∃ scheme, Uri.read raw = authorityReference (some scheme) rest ∧
          useTls = decide (foldCase scheme = ascii "https")) := by
  unfold absoluteScheme at absolute
  split at absolute
  · rename_i http
    cases absolute
    obtain ⟨scheme, rest, same, found⟩ := startsHttp_iff.mp http
    have dropped : (dropFragment raw).drop 7 = rest := drop_of_splitScheme found same
    refine ⟨rfl, Or.inr ⟨scheme, ?_, ?_⟩⟩
    · rw [read_of_splitScheme found, readHierarchy_of_slashes, dropped]
    · rw [same]
      decide
  · split at absolute
    · rename_i https
      cases absolute
      obtain ⟨scheme, rest, same, found⟩ := startsHttps_iff.mp https
      have dropped : (dropFragment raw).drop 8 = rest := drop_of_splitScheme found same
      refine ⟨rfl, Or.inr ⟨scheme, ?_, ?_⟩⟩
      · rw [read_of_splitScheme found, readHierarchy_of_slashes, dropped]
      · rw [same]
        decide
    · split at absolute
      · rename_i slashes
        obtain ⟨after, split⟩ := List.isPrefixOf_iff_prefix.mp slashes
        replace split : slash :: slash :: after = dropFragment raw := split
        cases absolute
        refine ⟨by cases defaultTls <;> rfl, Or.inl ⟨?_, rfl⟩⟩
        have absent : Uri.splitScheme (dropFragment raw) = none := by
          rw [← split]
          exact Uri.splitScheme_eq_none _ (by decide)
        rw [read_of_noScheme absent, ← split, readHierarchy_of_slashes]
        rfl
      · cases absolute

/-- Every other location has none of the three beginnings. -/
theorem absoluteScheme_eq_none_iff {location : Bytes} {defaultTls : Bool} :
    absoluteScheme location defaultTls = none ↔
      ¬ (startsIgnoringCase (ascii "http://") location = true ∨
        startsIgnoringCase (ascii "https://") location = true ∨
        (ascii "//").isPrefixOf location = true) := by
  unfold absoluteScheme
  simp only [ite_eq_right_iff, reduceCtorEq, imp_false, ite_eq_iff, and_false, false_or, not_or]

/-- **The parts of every other location** that has no scheme but one of the two. -/
theorem read_of_relative {raw : Bytes} {defaultTls : Bool}
    (relative : absoluteScheme (dropFragment raw) defaultTls = none) (web : WebLocation raw) :
    Uri.read raw =
      { scheme := none
        authority := none
        path := (Uri.splitQuery (dropFragment raw)).1
        query := (Uri.splitQuery (dropFragment raw)).2 } := by
  simp only [absoluteScheme_eq_none_iff, not_or] at relative
  obtain ⟨noHttp, noHttps, noSlashes⟩ := relative
  have absent : Uri.splitScheme (dropFragment raw) = none := by
    cases found : Uri.splitScheme (dropFragment raw) with
    | none => rfl
    | some parts =>
        obtain ⟨scheme, rest⟩ := parts
        rcases web with noScheme | ⟨name, named, same, authority⟩
        · rw [read_of_splitScheme found] at noScheme
          cases noScheme
        · rw [read_of_splitScheme found] at named authority
          obtain rfl := Option.some.inj named
          obtain ⟨after, rfl⟩ := (Uri.splitAuthority_isSome_iff rest).mp authority
          rcases same with http | https
          · exact absurd (startsHttp_iff.mpr ⟨scheme, after, http, found⟩) noHttp
          · exact absurd (startsHttps_iff.mpr ⟨scheme, after, https, found⟩) noHttps
  have unslashed : (Uri.splitAuthority (dropFragment raw)).1 = none := by
    rw [← Option.not_isSome_iff_eq_none, Uri.splitAuthority_isSome_iff]
    intro slashes
    exact noSlashes (List.isPrefixOf_iff_prefix.mpr slashes)
  rw [read_of_noScheme absent, Uri.readHierarchy, Uri.splitAuthority_of_none unslashed]

/-! ## Targets and paths -/

theorem setTarget_eq_some_iff {target : Bytes} (filled : target ≠ [])
    {stored : CharArray maxTargetBytes} :
    setTarget target = some stored ↔ stored.bytes = target := by
  rw [setTarget, if_neg filled, CharArray.store_eq_some_iff]

/-- A target is set after its length was tested for. -/
theorem setTarget_within_eq_some_iff {target : Bytes} (filled : target ≠ [])
    {stored : CharArray maxTargetBytes} :
    (if target.length < maxTargetBytes then setTarget target else none) = some stored ↔
      stored.bytes = target := by
  rw [Option.ite_none_right_eq_some, setTarget_eq_some_iff filled, and_iff_right_iff_imp]
  intro same
  rw [← same]
  exact stored.fits

section Requests

variable {request : Bytes}

theorem requestTarget_of_asked {target : CharArray maxTargetBytes} {rest : Bytes}
    (filled : target.bytes ≠ []) (visible : Visible target.bytes) :
    requestTarget (ascii "GET " ++ target.bytes ++ space :: rest) maxTargetBytes = some target := by
  refine requestTarget_eq_some_iff.mpr ⟨rest, ?_, visible.not_mem (by decide), filled⟩
  rw [List.append_assoc]

/-- The directory of a rooted path, through its last slash. -/
theorem take_directoryLength {path before after : Bytes}
    (cut : splitLast slash path = some (before, after)) :
    path.take (directoryLength path) = before ++ [slash] := by
  have split : path = before ++ [slash] ++ after :=
    (splitLast_eq_some cut).1.trans (List.append_cons _ _ _)
  have length : directoryLength path = (before ++ [slash]).length := by
    rw [directoryLength, cut, List.length_append, List.length_singleton]
  rw [length, split, List.take_left]

theorem length_take_directoryLength {path : Bytes} (filled : path ≠ []) :
    (path.take (directoryLength path)).length = directoryLength path := by
  have positive := List.length_pos_of_ne_nil filled
  have within : directoryLength path ≤ path.length := by
    unfold directoryLength
    split
    · rename_i before after cut
      rw [(splitLast_eq_some cut).1, List.length_append, List.length_cons]
      omega
    · omega
  rw [List.length_take, Nat.min_eq_left within]

/-- **A relative path resolves when there is room** for it after the directory of the target. -/
theorem relativeTarget_path_eq_some_iff {location : Bytes} {target asked : CharArray maxTargetBytes}
    (read : requestTarget request maxTargetBytes = some asked) (filled : location ≠ [])
    (noQuery : location.head? ≠ some question) :
    relativeTarget request location = some target ↔
      directoryLength (asked.bytes.takeWhile (· ≠ question)) + location.length < maxTargetBytes ∧
        target.bytes = (asked.bytes.takeWhile (· ≠ question)).take
          (directoryLength (asked.bytes.takeWhile (· ≠ question))) ++ location := by
  have positive := List.length_pos_of_ne_nil filled
  have notEmpty : (asked.bytes.takeWhile (· ≠ question)).take
      (directoryLength (asked.bytes.takeWhile (· ≠ question))) ++ location ≠ [] := fun empty =>
    filled (List.append_eq_nil_iff.mp empty).2
  rw [relativeTarget, read, Option.bind_some]
  dsimp only
  rw [if_neg noQuery, Option.ite_none_left_eq_some, Option.ite_none_left_eq_some,
    setTarget_eq_some_iff notEmpty, ← and_assoc]
  refine and_congr_left fun _ => ?_
  omega

end Requests

/-! ## Other schemes -/

/-- A location that begins with another scheme than the two. -/
def OtherScheme (location : Bytes) : Prop :=
  ∃ scheme, (Uri.read location).scheme = some scheme ∧ foldCase scheme ≠ ascii "http" ∧
    foldCase scheme ≠ ascii "https"

/-- The request asks for a target, and there is room for the location after the directory of that
target. -/
def TakenAsPath (request location : Bytes) : Prop :=
  location.length < maxLocationBytes ∧
    ∃ target rest, request = ascii "GET " ++ (target ++ space :: rest) ∧ space ∉ target ∧
      target ≠ [] ∧ target.length < maxTargetBytes ∧
      directoryLength (target.takeWhile (· ≠ question)) + (dropFragment location).length <
        maxTargetBytes

theorem splitScheme_of_read {raw scheme : Bytes} (named : (Uri.read raw).scheme = some scheme) :
    ∃ rest, Uri.splitScheme (dropFragment raw) = some (scheme, rest) := by
  cases found : Uri.splitScheme (dropFragment raw) with
  | none =>
      rw [read_of_noScheme found] at named
      cases named
  | some parts =>
      obtain ⟨scheme', rest⟩ := parts
      rw [read_of_splitScheme found] at named
      obtain rfl := Option.some.inj named
      exact ⟨rest, rfl⟩

/-- A location with another scheme begins with a letter, and is not taken for an absolute one. -/
theorem OtherScheme.relative {raw : Bytes} (other : OtherScheme raw) (defaultTls : Bool) :
    absoluteScheme (dropFragment raw) defaultTls = none ∧
      ∃ first rest, dropFragment raw = first :: rest ∧ Uri.isLetter first = true := by
  obtain ⟨scheme, named, noHttp, noHttps⟩ := other
  obtain ⟨rest, found⟩ := splitScheme_of_read named
  obtain ⟨isScheme, split⟩ := Uri.splitScheme_eq_some_iff.mp found
  obtain ⟨first, others, rfl⟩ : ∃ first others, scheme = first :: others := by
    cases scheme with
    | nil => cases isScheme
    | cons first others => exact ⟨first, others, rfl⟩
  simp only [Uri.isScheme, Bool.and_eq_true] at isScheme
  refine ⟨absoluteScheme_eq_none_iff.mpr ?_, first, others ++ colon :: rest, split, isScheme.1⟩
  rintro (http | https | slashes)
  · obtain ⟨scheme', _, same, found'⟩ := startsHttp_iff.mp http
    obtain ⟨rfl, _⟩ := Prod.mk.inj (Option.some.inj (found.symm.trans found'))
    exact noHttp same
  · obtain ⟨scheme', _, same, found'⟩ := startsHttps_iff.mp https
    obtain ⟨rfl, _⟩ := Prod.mk.inj (Option.some.inj (found.symm.trans found'))
    exact noHttps same
  · obtain ⟨after, starts⟩ := List.isPrefixOf_iff_prefix.mp slashes
    obtain ⟨rfl, _⟩ := List.cons.inj (starts.trans split)
    exact absurd isScheme.1 (by decide)

/-- **A location with another scheme is taken for a relative path**, where there is room for it. -/
theorem resolveLocation_otherScheme {current : Endpoint} {request raw : Bytes}
    (visible : Visible raw) (other : OtherScheme raw) :
    resolveLocation current request raw = none ↔ ¬ TakenAsPath request raw := by
  obtain ⟨relative, first, rest, starts, letter⟩ := other.relative current.useTls
  have filled : dropFragment raw ≠ [] := starts ▸ List.cons_ne_nil _ _
  have unrooted : (dropFragment raw).head? ≠ some slash := by
    intro rooted
    rw [starts, List.head?_cons] at rooted
    rw [Option.some.inj rooted] at letter
    exact absurd letter (by decide)
  have noQuery : (dropFragment raw).head? ≠ some question := by
    intro query
    rw [starts, List.head?_cons] at query
    rw [Option.some.inj query] at letter
    exact absurd letter (by decide)
  unfold resolveLocation
  rw [visibleUrlBytes_iff.mpr visible]
  simp only [Bool.true_eq_false, false_or, if_neg filled,
    if_neg (absoluteScheme_eq_none_iff.mp relative), if_neg unrooted]
  split
  · rename_i long
    simp only [TakenAsPath, true_iff, not_and]
    intro short
    omega
  · rename_i short
    rw [Option.map_eq_none_iff, ← Option.not_isSome_iff_eq_none, not_iff_not,
      Option.isSome_iff_exists]
    constructor
    · rintro ⟨target, found⟩
      obtain ⟨asked, read, _⟩ := Option.bind_eq_some_iff.mp found
      obtain ⟨room, _⟩ := (relativeTarget_path_eq_some_iff read filled noQuery).mp found
      obtain ⟨rest, split, absent, nonempty⟩ := requestTarget_eq_some_iff.mp read
      exact ⟨by omega, asked.bytes, rest, split, absent, nonempty, asked.fits, room⟩
    · rintro ⟨_, asked, rest, split, absent, nonempty, fits, room⟩
      have read : requestTarget request maxTargetBytes = some ⟨asked, fits⟩ :=
        requestTarget_eq_some_iff.mpr ⟨rest, split, absent, nonempty⟩
      have kept : ((asked.takeWhile (· ≠ question)).take
          (directoryLength (asked.takeWhile (· ≠ question)))).length ≤
            directoryLength (asked.takeWhile (· ≠ question)) := List.length_take_le _ _
      refine ⟨⟨_, ?_⟩, (relativeTarget_path_eq_some_iff read filled noQuery).mpr ⟨room, rfl⟩⟩
      rw [List.length_append]
      exact lt_of_le_of_lt (Nat.add_le_add_right kept _) room

end IcuTransport.Redirect
