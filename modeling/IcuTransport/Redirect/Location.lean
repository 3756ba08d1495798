import IcuTransport.Library.Uri
import IcuTransport.Limits

/-!
# Where a redirect leads

An endpoint is what the program connects to and asks for: whether TLS is used, a port, a host and
a request target. `resolveLocation` embeds the resolution of a `Location` against the current
endpoint: absolute and scheme-relative URLs, paths from the root, queries, and relative paths,
which are resolved against the target that stands in the text of the current request.

A resolved endpoint either keeps the origin of the current one, or its host and target are cut
from the visible bytes of the location (`resolveLocation_cases`).
-/

set_option autoImplicit false

namespace IcuTransport.Redirect

open Ascii TextScan
open Uri (inAuthority)

/-- What a request is sent to. -/
structure Endpoint where
  useTls : Bool
  port : Int32
  host : CharArray maxHostBytes
  target : CharArray maxTargetBytes
  deriving DecidableEq, Repr

/-! ## Parts of a URL -/

/-- The text consists of visible characters. -/
def visibleUrlBytes (text : Bytes) : Bool := text.all isVisible

/-- The text up to its fragment. -/
def dropFragment (text : Bytes) : Bytes := text.takeWhile (· ≠ hash)

/-- The loop of `parse_port_text`, after digits of the given value. -/
def parsePortDigits : ℕ → Bytes → Option ℕ
  | value, [] => if value < 1 then none else some value
  | value, byte :: rest =>
      if isDigit byte = false then none
      else if value * 10 + digitValue byte > 65535 then none
      else parsePortDigits (value * 10 + digitValue byte) rest

/-- A port number written in digits. -/
def parsePortText (text : Bytes) : Option ℕ :=
  if text = [] then none else parsePortDigits 0 text

/-- The host and the port of an authority. -/
def parseAuthority (authority : Bytes) (defaultPort : Int32) :
    Option (CharArray maxHostBytes × Int32) :=
  if authority.length = 0 ∨ authority.length ≥ maxHostBytes ∨ atSign ∈ authority ∨
      authority.head? = some openBracket ∨ closeBracket ∈ authority then
    none
  else
    match splitLast colon authority with
    | some (host, portText) =>
        if host = [] then none
        else
          (CharArray.store maxHostBytes host).bind fun stored =>
            (parsePortText portText).map fun port => (stored, Int32.ofNat port)
    | none => (CharArray.store maxHostBytes authority).map fun stored => (stored, defaultPort)

/-- A target as an endpoint holds it; the empty one stands for the root. -/
def setTarget (target : Bytes) : Option (CharArray maxTargetBytes) :=
  CharArray.store maxTargetBytes (if target = [] then [slash] else target)

/-- The scheme of an absolute location: its use of TLS, its default port and what follows the
two slashes. -/
def absoluteScheme (location : Bytes) (defaultTls : Bool) : Option (Bool × Int32 × Bytes) :=
  if startsIgnoringCase (ascii "http://") location then some (false, 80, location.drop 7)
  else if startsIgnoringCase (ascii "https://") location then some (true, 443, location.drop 8)
  else if (ascii "//").isPrefixOf location then
    some (defaultTls, if defaultTls then 443 else 80, location.drop 2)
  else none

/-- The endpoint of an absolute or scheme-relative location. -/
def parseAbsoluteLocation (location : Bytes) (defaultTls : Bool) : Option Endpoint :=
  (absoluteScheme location defaultTls).bind fun (useTls, defaultPort, rest) =>
    let authority := rest.takeWhile inAuthority
    let tail := rest.dropWhile inAuthority
    if authority.length = 0 ∨ authority.length ≥ maxHostBytes then none
    else
      (parseAuthority authority defaultPort).bind fun (host, port) =>
        -- a query right after the authority is a query of the root
        let target :=
          if tail = [] then setTarget [slash]
          else if tail.head? = some question then
            if (slash :: tail).length < maxTargetBytes then setTarget (slash :: tail) else none
          else setTarget tail
        target.map fun target => ⟨useTls, port, host, target⟩

/-- The target in the request line of a GET. -/
def requestTarget (request : Bytes) (capacity : ℕ) : Option (CharArray capacity) :=
  if (ascii "GET ").isPrefixOf request then
    match splitFirst space (request.drop 4) with
    | some (target, _) => if target = [] then none else CharArray.store capacity target
    | none => none
  else none

/-- How much of a path a relative reference keeps: everything through its last slash. A path
without a slash keeps its first byte. -/
def directoryLength (path : Bytes) : ℕ :=
  match splitLast slash path with
  | some (before, _) => before.length + 1
  | none => 1

/-- The target of a location that is neither absolute nor a path from the root. -/
def relativeTarget (request location : Bytes) : Option (CharArray maxTargetBytes) :=
  (requestTarget request maxTargetBytes).bind fun current =>
    let path := current.bytes.takeWhile (· ≠ question)
    if location.head? = some question then
      if (path ++ location).length < maxTargetBytes then setTarget (path ++ location) else none
    else if directoryLength path ≥ maxTargetBytes then none
    else if location.length ≥ maxTargetBytes - directoryLength path then none
    else setTarget (path.take (directoryLength path) ++ location)

/-- The endpoint a location leads to from the current one. -/
def resolveLocation (current : Endpoint) (request rawLocation : Bytes) : Option Endpoint :=
  if visibleUrlBytes rawLocation = false ∨ rawLocation.length ≥ maxLocationBytes then none
  else
    let location := dropFragment rawLocation
    if location = [] then none
    else if startsIgnoringCase (ascii "http://") location ∨
        startsIgnoringCase (ascii "https://") location ∨ (ascii "//").isPrefixOf location then
      parseAbsoluteLocation location current.useTls
    else if location.head? = some slash then
      (setTarget location).map fun target => { current with target := target }
    else
      (relativeTarget request location).map fun target => { current with target := target }

/-! ## Origins -/

/-- The same scheme, port and host. -/
def sameOrigin (left right : Endpoint) : Bool :=
  left.useTls = right.useTls && left.port = right.port &&
    foldCase left.host.bytes = foldCase right.host.bytes

theorem sameOrigin_iff {left right : Endpoint} :
    sameOrigin left right = true ↔
      left.useTls = right.useTls ∧ left.port = right.port ∧
        foldCase left.host.bytes = foldCase right.host.bytes := by
  simp only [sameOrigin, Bool.and_eq_true, decide_eq_true_eq, and_assoc]

theorem sameOrigin_refl (endpoint : Endpoint) : sameOrigin endpoint endpoint = true :=
  sameOrigin_iff.mpr ⟨rfl, rfl, rfl⟩

theorem sameOrigin_trans {first second third : Endpoint} (left : sameOrigin first second = true)
    (right : sameOrigin second third = true) : sameOrigin first third = true := by
  obtain ⟨tls, port, host⟩ := sameOrigin_iff.mp left
  obtain ⟨tls', port', host'⟩ := sameOrigin_iff.mp right
  exact sameOrigin_iff.mpr ⟨tls.trans tls', port.trans port', host.trans host'⟩

/-! ## What a resolved endpoint is made of -/

/-- A host that can stand in a URL and in a header line. -/
structure HostText (host : Bytes) : Prop where
  nonempty : host ≠ []
  visible : Visible host
  noDelimiter : slash ∉ host ∧ question ∉ host ∧ hash ∉ host ∧ atSign ∉ host

/-- A target that can stand in a request line. -/
structure TargetText (target : Bytes) : Prop where
  rooted : target.head? = some slash
  visible : Visible target
  noFragment : hash ∉ target

theorem visibleUrlBytes_iff {text : Bytes} : visibleUrlBytes text = true ↔ Visible text := by
  simp [visibleUrlBytes, Visible]

theorem setTarget_bytes {target : Bytes} {stored : CharArray maxTargetBytes}
    (set : setTarget target = some stored) :
    stored.bytes = if target = [] then [slash] else target :=
  CharArray.store_eq_some_iff.mp set

/-- **A request asks for a target** when this stands between its method and the next space. -/
theorem requestTarget_eq_some_iff {request : Bytes} {capacity : ℕ} {target : CharArray capacity} :
    requestTarget request capacity = some target ↔
      ∃ rest, request = ascii "GET " ++ (target.bytes ++ space :: rest) ∧ space ∉ target.bytes ∧
        target.bytes ≠ [] := by
  have length : (ascii "GET ").length = 4 := rfl
  unfold requestTarget
  split
  · rename_i starts
    obtain ⟨after, rfl⟩ := List.isPrefixOf_iff_prefix.mp starts
    rw [← length, List.drop_left]
    constructor
    · intro found
      split at found
      · rename_i before rest cut
        obtain ⟨rfl, absent⟩ := splitFirst_eq_some_iff.mp cut
        rw [Option.ite_none_left_eq_some, CharArray.store_eq_some_iff] at found
        obtain ⟨filled, same⟩ := found
        exact ⟨rest, by rw [same], same ▸ absent, same ▸ filled⟩
      · cases found
    · rintro ⟨rest, split, absent, filled⟩
      rw [List.append_cancel_left split, splitFirst_append_cons absent]
      simp only [if_neg filled]
      exact CharArray.store_eq_some_iff.mpr rfl
  · rename_i other
    simp only [reduceCtorEq, false_iff, not_exists, not_and]
    rintro rest rfl
    exact absurd (List.isPrefixOf_iff_prefix.mpr (List.prefix_append _ _)) other

theorem parsePortDigits_bound {value port : ℕ} {text : Bytes}
    (parsed : parsePortDigits value text = some port) (small : value ≤ 65535) :
    1 ≤ port ∧ port ≤ 65535 := by
  induction text generalizing value with
  | nil =>
      unfold parsePortDigits at parsed
      split at parsed
      · cases parsed
      · cases parsed
        omega
  | cons byte rest ih =>
      unfold parsePortDigits at parsed
      split at parsed
      · cases parsed
      · split at parsed
        · cases parsed
        · exact ih parsed (by omega)

theorem parsePortText_bound {port : ℕ} {text : Bytes} (parsed : parsePortText text = some port) :
    1 ≤ port ∧ port ≤ 65535 := by
  unfold parsePortText at parsed
  split at parsed
  · cases parsed
  · exact parsePortDigits_bound parsed (by omega)

/-- The host of an authority is a non-empty part of it, and the port is the default one or a
port number. -/
theorem parseAuthority_parts {authority : Bytes} {defaultPort port : Int32}
    {host : CharArray maxHostBytes}
    (parsed : parseAuthority authority defaultPort = some (host, port)) :
    host.bytes ≠ [] ∧ host.bytes <+: authority ∧ atSign ∉ authority ∧
      (port = defaultPort ∨
        ∃ number : ℕ, port = Int32.ofNat number ∧ 1 ≤ number ∧ number ≤ 65535) := by
  unfold parseAuthority at parsed
  split at parsed
  · cases parsed
  · rename_i accepted
    simp only [not_or] at accepted
    obtain ⟨nonempty, _, noAt, _⟩ := accepted
    cases cut : splitLast colon authority with
    | some parts =>
        obtain ⟨before, portText⟩ := parts
        simp only [cut] at parsed
        split at parsed
        · cases parsed
        · rename_i filled
          simp only [Option.bind_eq_some_iff, Option.map_eq_some_iff, Prod.mk.injEq] at parsed
          obtain ⟨stored, held, number, numbered, rfl, rfl⟩ := parsed
          rw [CharArray.store_eq_some_iff.mp held]
          refine ⟨filled, ?_, noAt, Or.inr ⟨number, rfl, parsePortText_bound numbered⟩⟩
          exact ⟨colon :: portText, (splitLast_eq_some cut).1.symm⟩
    | none =>
        simp only [cut, Option.map_eq_some_iff, Prod.mk.injEq] at parsed
        obtain ⟨stored, held, rfl, rfl⟩ := parsed
        rw [CharArray.store_eq_some_iff.mp held]
        refine ⟨?_, List.prefix_rfl, noAt, Or.inl rfl⟩
        rintro rfl
        exact nonempty rfl

theorem toInt_ofNat_port {number : ℕ} (small : number ≤ 65535) :
    (Int32.ofNat number).toInt = number := by
  rw [Int32.toInt_ofNat_of_lt]
  omega

theorem defaultPort_range {port : Int32} (defaults : port = 80 ∨ port = 443) :
    1 ≤ port.toInt ∧ port.toInt ≤ 65535 := by
  rcases defaults with rfl | rfl
  · decide
  · decide

/-- Every scheme has its default port. -/
theorem absoluteScheme_parts {location rest : Bytes} {defaultTls useTls : Bool} {port : Int32}
    (scheme : absoluteScheme location defaultTls = some (useTls, port, rest)) :
    rest <:+ location ∧ (port = 80 ∨ port = 443) := by
  unfold absoluteScheme at scheme
  split at scheme
  · cases scheme
    exact ⟨List.drop_suffix _ _, Or.inl rfl⟩
  · split at scheme
    · cases scheme
      exact ⟨List.drop_suffix _ _, Or.inr rfl⟩
    · split at scheme
      · cases scheme
        refine ⟨List.drop_suffix _ _, ?_⟩
        cases defaultTls
        · exact Or.inl rfl
        · exact Or.inr rfl
      · cases scheme

/-- A host cut from the start of an authority can be written back. -/
theorem hostText_of_authority {rest host : Bytes} (visible : Visible rest)
    (noFragment : hash ∉ rest)
    (nonempty : host ≠ []) (within : host <+: rest.takeWhile inAuthority)
    (noAt : atSign ∉ rest.takeWhile inAuthority) : HostText host := by
  have inside : ∀ byte ∈ host, inAuthority byte = true := fun byte member =>
    List.mem_takeWhile_imp (within.subset member)
  have sublist : host.Sublist rest := within.sublist.trans (List.takeWhile_sublist inAuthority)
  refine ⟨nonempty, visible.sublist sublist, ?_, ?_, ?_, ?_⟩
  · intro member
    exact absurd (inside slash member) (by decide)
  · intro member
    exact absurd (inside question member) (by decide)
  · intro member
    exact noFragment (sublist.subset member)
  · intro member
    exact noAt (within.subset member)

/-- What follows an authority starts with a slash or a question mark. -/
theorem head?_dropWhile_inAuthority {rest : Bytes} (filled : rest.dropWhile inAuthority ≠ [])
    (noQuery : (rest.dropWhile inAuthority).head? ≠ some question) :
    (rest.dropWhile inAuthority).head? = some slash := by
  have stops := List.head?_dropWhile_not inAuthority rest
  cases tail : rest.dropWhile inAuthority with
  | nil => exact absurd tail filled
  | cons byte after =>
      rw [tail, List.head?_cons] at noQuery stops
      simp only [inAuthority, ne_eq, Bool.and_eq_false_iff, decide_eq_false_iff_not,
        not_not] at stops
      rcases stops with same | same
      · rw [List.head?_cons, same]
      · exact absurd (congrArg some same) noQuery

theorem targetText_root : TargetText [slash] := ⟨rfl, by decide, by decide⟩

/-- The target of an absolute location is the root, a query of it, or the path as written. -/
theorem targetText_of_tail {rest : Bytes} {target : CharArray maxTargetBytes}
    (visible : Visible rest) (noFragment : hash ∉ rest)
    (chosen : (if rest.dropWhile inAuthority = [] then setTarget [slash]
      else if (rest.dropWhile inAuthority).head? = some question then
        if (slash :: rest.dropWhile inAuthority).length < maxTargetBytes then
          setTarget (slash :: rest.dropWhile inAuthority)
        else none
      else setTarget (rest.dropWhile inAuthority)) = some target) : TargetText target.bytes := by
  have sublist := List.dropWhile_sublist inAuthority (l := rest)
  have visibleTail : Visible (rest.dropWhile inAuthority) := visible.sublist sublist
  have noHash : hash ∉ rest.dropWhile inAuthority :=
    fun member => noFragment (sublist.subset member)
  split at chosen
  · rw [setTarget_bytes chosen]
    exact targetText_root
  · rename_i filled
    split at chosen
    · split at chosen
      · rw [setTarget_bytes chosen]
        refine ⟨rfl, targetText_root.visible.append visibleTail, ?_⟩
        intro member
        rcases List.mem_cons.mp member with same | inTail
        · exact absurd same (by decide)
        · exact noHash inTail
      · cases chosen
    · rename_i noQuery
      rw [setTarget_bytes chosen, if_neg filled]
      exact ⟨head?_dropWhile_inAuthority filled noQuery, visibleTail, noHash⟩

/-- **An absolute location gives a host and a target that can be written back**, and a port
number. -/
theorem parseAbsoluteLocation_parts {location : Bytes} {defaultTls : Bool} {endpoint : Endpoint}
    (parsed : parseAbsoluteLocation location defaultTls = some endpoint)
    (visible : Visible location) (noFragment : hash ∉ location) :
    HostText endpoint.host.bytes ∧ TargetText endpoint.target.bytes ∧
      1 ≤ endpoint.port.toInt ∧ endpoint.port.toInt ≤ 65535 := by
  unfold parseAbsoluteLocation at parsed
  obtain ⟨⟨useTls, defaultPort, rest⟩, scheme, parsed⟩ := Option.bind_eq_some_iff.mp parsed
  obtain ⟨suffix, defaults⟩ := absoluteScheme_parts scheme
  have visibleRest : Visible rest := visible.sublist suffix.sublist
  have noHash : hash ∉ rest := fun member => noFragment (suffix.subset member)
  dsimp only at parsed
  split at parsed
  · cases parsed
  · obtain ⟨⟨host, port⟩, authority, parsed⟩ := Option.bind_eq_some_iff.mp parsed
    obtain ⟨target, chosen, rfl⟩ := Option.map_eq_some_iff.mp parsed
    obtain ⟨nonempty, within, noAt, ports⟩ := parseAuthority_parts authority
    refine ⟨hostText_of_authority visibleRest noHash nonempty within noAt,
      targetText_of_tail visibleRest noHash chosen, ?_⟩
    rcases ports with rfl | ⟨number, rfl, low, high⟩
    · exact defaultPort_range defaults
    · rw [toInt_ofNat_port high]
      omega

/-- **A relative location keeps a part of the current target**, which starts as that target does. -/
theorem relativeTarget_parts {request location : Bytes} {target : CharArray maxTargetBytes}
    (resolved : relativeTarget request location = some target) (filled : location ≠ []) :
    ∃ current kept, requestTarget request maxTargetBytes = some current ∧
      kept <+: current.bytes ∧ target.bytes = kept ++ location ∧
      (current.bytes.head? = some slash → kept.head? = some slash) := by
  obtain ⟨current, read, resolved⟩ := Option.bind_eq_some_iff.mp resolved
  have pathPrefix : current.bytes.takeWhile (· ≠ question) <+: current.bytes :=
    List.takeWhile_prefix _
  have pathRooted : current.bytes.head? = some slash →
      (current.bytes.takeWhile (· ≠ question)).head? = some slash := by
    intro rooted
    cases bytes : current.bytes with
    | nil => rw [bytes] at rooted; cases rooted
    | cons byte rest =>
        rw [bytes] at rooted
        obtain rfl := Option.some.inj rooted
        rfl
  have notEmpty : ∀ kept : Bytes, kept ++ location ≠ [] := fun kept empty =>
    filled (List.append_eq_nil_iff.mp empty).2
  dsimp only at resolved
  split at resolved
  · split at resolved
    · refine ⟨current, _, read, pathPrefix, ?_, pathRooted⟩
      rw [setTarget_bytes resolved, if_neg (notEmpty _)]
    · cases resolved
  · split at resolved
    · cases resolved
    · split at resolved
      · cases resolved
      · refine ⟨current, (current.bytes.takeWhile (· ≠ question)).take
          (directoryLength (current.bytes.takeWhile (· ≠ question))), read,
          (List.take_prefix _ _).trans pathPrefix, ?_, ?_⟩
        · rw [setTarget_bytes resolved, if_neg (notEmpty _)]
        · intro rooted
          have positive : directoryLength (current.bytes.takeWhile (· ≠ question)) ≠ 0 := by
            unfold directoryLength
            split <;> omega
          rw [List.head?_take, if_neg positive]
          exact pathRooted rooted

/-- **What a location resolves to**: an endpoint whose host, target and port come from the
location, or one at the same host, port and scheme whose target is the location itself or the
location after a part of the target in the request. -/
theorem resolveLocation_cases {current next : Endpoint} {request raw : Bytes}
    (resolved : resolveLocation current request raw = some next) :
    (HostText next.host.bytes ∧ TargetText next.target.bytes ∧
      1 ≤ next.port.toInt ∧ next.port.toInt ≤ 65535) ∨
    (next.useTls = current.useTls ∧ next.port = current.port ∧ next.host = current.host ∧
      (TargetText next.target.bytes ∨
        ∃ target kept location, requestTarget request maxTargetBytes = some target ∧
          kept <+: target.bytes ∧ next.target.bytes = kept ++ location ∧ location ≠ [] ∧
          Visible location ∧ hash ∉ location ∧
          (target.bytes.head? = some slash → kept.head? = some slash))) := by
  unfold resolveLocation at resolved
  split at resolved
  · cases resolved
  · rename_i accepted
    simp only [not_or, Bool.not_eq_false] at accepted
    have visible : Visible (dropFragment raw) :=
      (visibleUrlBytes_iff.mp accepted.1).sublist (List.takeWhile_sublist _)
    have noFragment : hash ∉ dropFragment raw := fun member =>
      absurd (List.mem_takeWhile_imp member) (by decide)
    dsimp only at resolved
    split at resolved
    · cases resolved
    · rename_i filled
      split at resolved
      · exact Or.inl (parseAbsoluteLocation_parts resolved visible noFragment)
      · right
        split at resolved
        · rename_i rooted
          obtain ⟨target, set, rfl⟩ := Option.map_eq_some_iff.mp resolved
          refine ⟨rfl, rfl, rfl, Or.inl ?_⟩
          rw [setTarget_bytes set, if_neg filled]
          exact ⟨rooted, visible, noFragment⟩
        · obtain ⟨target, relative, rfl⟩ := Option.map_eq_some_iff.mp resolved
          obtain ⟨current', kept, read, keptPrefix, bytes, rooted⟩ :=
            relativeTarget_parts relative filled
          exact ⟨rfl, rfl, rfl, Or.inr ⟨current', kept, dropFragment raw, read, keptPrefix, bytes,
            filled, visible, noFragment, rooted⟩⟩

end IcuTransport.Redirect
