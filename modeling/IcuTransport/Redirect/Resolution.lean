import IcuTransport.Redirect.Schemes

/-!
# Resolution by the grammar of references

The resolution of a location tests for a few beginnings and cuts at the delimiters it finds. Here it
is compared with the resolution of references of RFC 3986, which reads the parts of a reference and
transforms them against a base. The base is the URL of the current endpoint (`endpointUrl`), and an
endpoint stands for a URL when it has its scheme, its host, its port and its target (`StandsFor`).

A location without a scheme, or with one of the two schemes and an authority, resolves exactly when
its authority can be read and the target fits, and then to the transformed reference
(`resolveLocation_eq_some_iff`).
-/

set_option autoImplicit false

namespace IcuTransport.Redirect

open Ascii TextScan Wire
open Uri (inAuthority)

/-! ## Endpoints as URLs -/

/-- The host and the port that an authority names. -/
def namedAuthority (text : Bytes) : Bytes × Option Int32 :=
  (authorityHost text, (authorityPort text).map Int32.ofNat)

/-- The URL of an endpoint. -/
def endpointUrl (endpoint : Endpoint) : Uri.Reference (Bytes × Option Int32) where
  scheme := some (if endpoint.useTls then ascii "https" else ascii "http")
  authority := some (endpoint.host.bytes, some endpoint.port)
  path := (Uri.splitQuery endpoint.target.bytes).1
  query := (Uri.splitQuery endpoint.target.bytes).2

/-- The URL that a location stands for at an endpoint. -/
def resolvedUrl (current : Endpoint) (location : Bytes) : Uri.Reference (Bytes × Option Int32) :=
  Uri.transform (endpointUrl current) ((Uri.read location).mapAuthority namedAuthority)

/-- A URL is asked for over TLS. -/
def urlUsesTls {α : Type} (url : Uri.Reference α) : Bool :=
  url.scheme.map foldCase = some (ascii "https")

/-- The request target of a URL: its path, or the root for an empty one, and its query. -/
def urlTarget {α : Type} (url : Uri.Reference α) : Bytes :=
  Uri.joinQuery (if url.path = [] then [slash] else url.path) url.query

/-- The endpoint has the scheme, the host, the port and the target of a URL. A port that is not
given is the default one of the scheme. -/
structure StandsFor (endpoint : Endpoint) (url : Uri.Reference (Bytes × Option Int32)) : Prop where
  useTls : endpoint.useTls = urlUsesTls url
  authority : ∃ port, url.authority = some (endpoint.host.bytes, port) ∧
    endpoint.port = port.getD (Int32.ofNat (schemePort (urlUsesTls url)))
  target : endpoint.target.bytes = urlTarget url

/-- Any authority of a location can be read. -/
def ReadableAuthority (location : Bytes) : Prop :=
  ∀ text, (Uri.read location).authority = some text → AuthorityText text

/-! ## The endpoint of a transformed reference -/

/-- The target of what follows an authority. -/
theorem urlTarget_tail (tail : Bytes) :
    Uri.joinQuery (if (Uri.splitQuery tail).1 = [] then [slash] else (Uri.splitQuery tail).1)
        (Uri.splitQuery tail).2 =
      if tail = [] then [slash] else if tail.head? = some question then slash :: tail
        else tail := by
  cases tail with
  | nil => rfl
  | cons first rest =>
      rw [if_neg (List.cons_ne_nil _ _), List.head?_cons]
      by_cases query : first = question
      · subst query
        rw [if_pos rfl, Uri.splitQuery_of_query]
        rfl
      · have kept : (Uri.splitQuery (first :: rest)).1 ≠ [] := by
          rw [Uri.splitQuery_path_cons query]
          exact List.cons_ne_nil _ _
        rw [if_neg kept, Uri.joinQuery_splitQuery, if_neg fun same => query (Option.some.inj same)]

/-- **The endpoint of an absolute or scheme-relative location.** -/
theorem parseAbsoluteLocation_eq_some_iff {location rest : Bytes} {defaultTls useTls : Bool}
    {defaultPort : Int32} {next : Endpoint}
    (absolute : absoluteScheme location defaultTls = some (useTls, defaultPort, rest)) :
    parseAbsoluteLocation location defaultTls = some next ↔
      AuthorityText (rest.takeWhile inAuthority) ∧ next.useTls = useTls ∧
        next.host.bytes = authorityHost (rest.takeWhile inAuthority) ∧
        next.port =
          ((authorityPort (rest.takeWhile inAuthority)).map Int32.ofNat).getD defaultPort ∧
        next.target.bytes = urlTarget (authorityReference none rest) := by
  have tail := urlTarget_tail (rest.dropWhile inAuthority)
  have chosen : ∀ {stored : CharArray maxTargetBytes},
      (if rest.dropWhile inAuthority = [] then setTarget [slash]
        else if (rest.dropWhile inAuthority).head? = some question then
          if (slash :: rest.dropWhile inAuthority).length < maxTargetBytes then
            setTarget (slash :: rest.dropWhile inAuthority)
          else none
        else setTarget (rest.dropWhile inAuthority)) = some stored ↔
      stored.bytes = urlTarget (authorityReference none rest) := by
    intro stored
    rw [urlTarget, authorityReference, tail]
    split
    · exact setTarget_eq_some_iff (by decide)
    · rename_i filled
      split
      · exact setTarget_within_eq_some_iff (List.cons_ne_nil _ _)
      · exact setTarget_eq_some_iff filled
  have bounds : AuthorityText (rest.takeWhile inAuthority) →
      ¬ ((rest.takeWhile inAuthority).length = 0 ∨
        (rest.takeWhile inAuthority).length ≥ maxHostBytes) := by
    intro authority
    have limit : maxHostBytes = 1024 := rfl
    have low := authority.filled
    have high := authority.short
    omega
  rw [parseAbsoluteLocation, absolute, Option.bind_some]
  obtain ⟨tls, port, host, target⟩ := next
  simp only [Option.ite_none_left_eq_some, Option.bind_eq_some_iff, Prod.exists,
    Option.map_eq_some_iff, parseAuthority_eq_some_iff, chosen, Endpoint.mk.injEq]
  constructor
  · rintro ⟨_, host', port', ⟨authority, hostBytes, rfl⟩, target', targetBytes, rfl, rfl, rfl, rfl⟩
    exact ⟨authority, rfl, hostBytes, rfl, targetBytes⟩
  · rintro ⟨authority, rfl, hostBytes, rfl, targetBytes⟩
    exact ⟨bounds authority, host, _, ⟨authority, hostBytes, rfl⟩, target, targetBytes, rfl, rfl,
      rfl, rfl⟩

theorem standsFor_iff {endpoint : Endpoint} {url : Uri.Reference (Bytes × Option Int32)}
    {host : Bytes} {port : Option Int32} (known : url.authority = some (host, port)) :
    StandsFor endpoint url ↔
      endpoint.useTls = urlUsesTls url ∧ endpoint.host.bytes = host ∧
        endpoint.port = port.getD (Int32.ofNat (schemePort (urlUsesTls url))) ∧
        endpoint.target.bytes = urlTarget url := by
  constructor
  · rintro ⟨useTls, ⟨port', found, ports⟩, target⟩
    obtain ⟨rfl, rfl⟩ := Prod.mk.inj (Option.some.inj (known.symm.trans found))
    exact ⟨useTls, rfl, ports, target⟩
  · rintro ⟨useTls, rfl, ports, target⟩
    exact ⟨useTls, ⟨port, known, ports⟩, target⟩

theorem urlUsesTls_endpointUrl (endpoint : Endpoint) :
    urlUsesTls (endpointUrl endpoint) = endpoint.useTls := by
  have scheme : (endpointUrl endpoint).scheme =
      some (if endpoint.useTls then ascii "https" else ascii "http") := rfl
  rw [urlUsesTls, scheme]
  cases endpoint.useTls with
  | true => decide
  | false => decide

section Resolved

variable {current next : Endpoint} {request raw : Bytes}

/-- An absolute location stands for the endpoint that is read from it. -/
theorem standsFor_absolute_iff {rest : Bytes} {useTls : Bool} {defaultPort : Int32}
    (absolute : absoluteScheme (dropFragment raw) current.useTls =
      some (useTls, defaultPort, rest)) :
    StandsFor next (resolvedUrl current raw) ↔
      next.useTls = useTls ∧ next.host.bytes = authorityHost (rest.takeWhile inAuthority) ∧
        next.port =
          ((authorityPort (rest.takeWhile inAuthority)).map Int32.ofNat).getD defaultPort ∧
        next.target.bytes = urlTarget (authorityReference none rest) := by
  obtain ⟨rfl, ⟨read, rfl⟩ | ⟨scheme, read, rfl⟩⟩ := read_of_absoluteScheme absolute
  · have resolved : resolvedUrl current raw =
        { (authorityReference none rest).mapAuthority namedAuthority with
          scheme := (endpointUrl current).scheme } := by
      rw [resolvedUrl, read]
      rfl
    rw [resolved, standsFor_iff rfl]
    exact Iff.of_eq (by rw [← urlUsesTls_endpointUrl current]; rfl)
  · have resolved : resolvedUrl current raw =
        (authorityReference (some scheme) rest).mapAuthority namedAuthority := by
      rw [resolvedUrl, read]
      rfl
    have scheme_tls : urlUsesTls ((authorityReference (some scheme) rest).mapAuthority
        namedAuthority) = decide (foldCase scheme = ascii "https") := by
      simp only [urlUsesTls, authorityReference, Uri.Reference.mapAuthority, Option.map_some,
        Option.some.injEq]
    rw [resolved, standsFor_iff rfl, scheme_tls]
    rfl

/-- A location without scheme and authority stands for a target at the same place. -/
theorem standsFor_relative_iff (relative : absoluteScheme (dropFragment raw) current.useTls = none)
    (web : WebLocation raw) :
    StandsFor next (resolvedUrl current raw) ↔
      next.useTls = current.useTls ∧ next.host = current.host ∧ next.port = current.port ∧
        next.target.bytes = urlTarget (resolvedUrl current raw) := by
  have read := read_of_relative relative web
  have scheme : (resolvedUrl current raw).scheme = (endpointUrl current).scheme := by
    rw [resolvedUrl, read]
    rfl
  have authority : (resolvedUrl current raw).authority =
      some (current.host.bytes, some current.port) := by
    rw [resolvedUrl, read]
    rfl
  have tls : urlUsesTls (resolvedUrl current raw) = current.useTls := by
    rw [← urlUsesTls_endpointUrl current, urlUsesTls, scheme, urlUsesTls]
  rw [standsFor_iff authority, tls, Option.getD_some, CharArray.bytes_inj]

/-- The path of a target that starts at the root. -/
theorem rooted_path {target : Bytes} (rooted : target.head? = some slash) :
    ∃ rest, (Uri.splitQuery target).1 = slash :: rest := by
  cases target with
  | nil => cases rooted
  | cons first rest =>
      obtain rfl := Option.some.inj rooted
      exact ⟨_, Uri.splitQuery_path_cons (by decide) rest⟩

/-- A reference path that starts at the root replaces the target. -/
theorem urlTarget_of_rooted (relative : absoluteScheme (dropFragment raw) current.useTls = none)
    (web : WebLocation raw) (rooted : (dropFragment raw).head? = some slash) :
    urlTarget (resolvedUrl current raw) = dropFragment raw := by
  obtain ⟨rest, path⟩ := rooted_path rooted
  have whole := Uri.joinQuery_splitQuery (dropFragment raw)
  rw [path] at whole
  rw [resolvedUrl, read_of_relative relative web, path]
  exact whole

/-- A query is added to the path of the target. -/
theorem urlTarget_of_query (relative : absoluteScheme (dropFragment raw) current.useTls = none)
    (web : WebLocation raw) (rooted : current.target.bytes.head? = some slash) {rest : Bytes}
    (query : dropFragment raw = question :: rest) :
    urlTarget (resolvedUrl current raw) =
      current.target.bytes.takeWhile (· ≠ question) ++ dropFragment raw := by
  obtain ⟨after, path⟩ := rooted_path rooted
  have base : (endpointUrl current).path = slash :: after := path
  have resolved : resolvedUrl current raw =
      { endpointUrl current with query := some rest } := by
    rw [resolvedUrl, read_of_relative relative web, query, Uri.splitQuery_of_query]
    rfl
  rw [resolved, query, ← Uri.splitQuery_path, urlTarget]
  simp only [base, reduceCtorEq, if_false, path]
  rfl

/-- Any other path is put after the directory of the target. -/
theorem urlTarget_of_path (relative : absoluteScheme (dropFragment raw) current.useTls = none)
    (web : WebLocation raw) (rooted : current.target.bytes.head? = some slash)
    (filled : dropFragment raw ≠ []) (unrooted : (dropFragment raw).head? ≠ some slash)
    (noQuery : (dropFragment raw).head? ≠ some question) :
    urlTarget (resolvedUrl current raw) =
      (current.target.bytes.takeWhile (· ≠ question)).take
        (directoryLength (current.target.bytes.takeWhile (· ≠ question))) ++ dropFragment raw := by
  have whole := Uri.joinQuery_splitQuery (dropFragment raw)
  obtain ⟨first, others, path, other⟩ : ∃ first others,
      (Uri.splitQuery (dropFragment raw)).1 = first :: others ∧ first ≠ slash := by
    cases text : dropFragment raw with
    | nil => exact absurd text filled
    | cons first others =>
        rw [text, List.head?_cons] at unrooted noQuery
        refine ⟨first, _, Uri.splitQuery_path_cons ?_ others,
          fun same => unrooted (congrArg some same)⟩
        exact fun same => noQuery (congrArg some same)
  obtain ⟨after, base⟩ := rooted_path rooted
  cases cut : splitLast slash (Uri.splitQuery current.target.bytes).1 with
  | none =>
      rw [base, splitLast_eq_none_iff] at cut
      exact absurd List.mem_cons_self cut
  | some parts =>
      obtain ⟨directory, file⟩ := parts
      have merged : Uri.merge (endpointUrl current) (first :: others) =
          directory ++ [slash] ++ first :: others := by
        have basePath : (endpointUrl current).path = slash :: after := base
        have baseCut : splitLast slash (endpointUrl current).path = some (directory, file) := cut
        rw [Uri.merge, if_neg (by simp [basePath]), baseCut, List.append_assoc]
        rfl
      have resolved : resolvedUrl current raw =
          { endpointUrl current with
            path := directory ++ [slash] ++ first :: others
            query := (Uri.splitQuery (dropFragment raw)).2 } := by
        rw [resolvedUrl, read_of_relative relative web, path, ← merged]
        simp [Uri.transform, Uri.Reference.mapAuthority, other]
      have nonempty : directory ++ [slash] ++ first :: others ≠ [] := by simp
      rw [path] at whole
      rw [← Uri.splitQuery_path, take_directoryLength cut, resolved, urlTarget, if_neg nonempty,
        Uri.joinQuery_append, whole]

/-- The target of a location without scheme and authority. -/
theorem relative_eq_some_iff (asked : requestTarget request maxTargetBytes = some current.target)
    (relative : absoluteScheme (dropFragment raw) current.useTls = none) (web : WebLocation raw)
    (rooted : current.target.bytes.head? = some slash) (filled : dropFragment raw ≠ [])
    {target : CharArray maxTargetBytes} :
    (if (dropFragment raw).head? = some slash then setTarget (dropFragment raw)
      else relativeTarget request (dropFragment raw)) = some target ↔
      target.bytes = urlTarget (resolvedUrl current raw) := by
  have notEmpty : ∀ kept : Bytes, kept ++ dropFragment raw ≠ [] := fun kept empty =>
    filled (List.append_eq_nil_iff.mp empty).2
  split
  · rename_i root
    rw [urlTarget_of_rooted relative web root]
    exact setTarget_eq_some_iff filled
  · rename_i unrooted
    by_cases query : (dropFragment raw).head? = some question
    · rw [relativeTarget, asked, Option.bind_some]
      dsimp only
      rw [if_pos query]
      obtain ⟨rest, starts⟩ : ∃ rest, dropFragment raw = question :: rest := by
        cases text : dropFragment raw with
        | nil => exact absurd text filled
        | cons first rest =>
            rw [text] at query
            exact ⟨rest, by rw [Option.some.inj query]⟩
      rw [urlTarget_of_query relative web rooted starts]
      exact setTarget_within_eq_some_iff (notEmpty _)
    · rw [relativeTarget_path_eq_some_iff asked filled query,
        urlTarget_of_path relative web rooted filled unrooted query, and_iff_right_iff_imp]
      intro same
      have path : current.target.bytes.takeWhile (· ≠ question) ≠ [] := by
        obtain ⟨after, base⟩ := rooted_path rooted
        rw [← Uri.splitQuery_path, base]
        exact List.cons_ne_nil _ _
      have fits := target.fits
      rw [same, List.length_append, length_take_directoryLength path] at fits
      exact fits

/-- Another target at the same place. -/
theorem retarget_eq_some_iff {target : Option (CharArray maxTargetBytes)} :
    (target.map fun target => { current with target := target }) = some next ↔
      next.useTls = current.useTls ∧ next.host = current.host ∧ next.port = current.port ∧
        target = some next.target := by
  obtain ⟨useTls, port, host, stored⟩ := next
  simp only [Option.map_eq_some_iff, Endpoint.mk.injEq]
  constructor
  · rintro ⟨_, found, rfl, rfl, rfl, rfl⟩
    exact ⟨rfl, rfl, rfl, found⟩
  · rintro ⟨rfl, rfl, rfl, found⟩
    exact ⟨stored, found, rfl, rfl, rfl, rfl⟩

/-- **A location resolves to the transformed reference**, when its authority can be read. -/
theorem resolveLocation_eq_some_iff
    (asked : requestTarget request maxTargetBytes = some current.target)
    (rooted : current.target.bytes.head? = some slash) (visible : Visible raw)
    (short : raw.length < maxLocationBytes) (filled : dropFragment raw ≠ [])
    (web : WebLocation raw) :
    resolveLocation current request raw = some next ↔
      ReadableAuthority raw ∧ StandsFor next (resolvedUrl current raw) := by
  have accepted : ¬ (visibleUrlBytes raw = false ∨ raw.length ≥ maxLocationBytes) := by
    rw [visibleUrlBytes_iff.mpr visible]
    simpa using short
  rw [resolveLocation, if_neg accepted]
  dsimp only
  rw [if_neg filled]
  cases absolute : absoluteScheme (dropFragment raw) current.useTls with
  | some parts =>
      obtain ⟨useTls, defaultPort, rest⟩ := parts
      have starts :=
        mt absoluteScheme_eq_none_iff.mpr (by rw [absolute]; exact Option.some_ne_none _)
      have readable : ReadableAuthority raw ↔ AuthorityText (rest.takeWhile inAuthority) := by
        have authority : (Uri.read raw).authority = some (rest.takeWhile inAuthority) := by
          obtain ⟨_, ⟨read, _⟩ | ⟨_, read, _⟩⟩ := read_of_absoluteScheme absolute
          · rw [read]
            rfl
          · rw [read]
            rfl
        simp only [ReadableAuthority, authority, Option.some.injEq, forall_eq']
      rw [if_pos (not_not.mp starts), parseAbsoluteLocation_eq_some_iff absolute, readable,
        standsFor_absolute_iff absolute]
  | none =>
      have readable : ReadableAuthority raw := by
        intro text authority
        rw [read_of_relative absolute web] at authority
        cases authority
      rw [if_neg (absoluteScheme_eq_none_iff.mp absolute), and_iff_right readable,
        standsFor_relative_iff absolute web,
          ← relative_eq_some_iff asked absolute web rooted filled]
      split
      · exact retarget_eq_some_iff
      · exact retarget_eq_some_iff

theorem length_authorityHost_le (text : Bytes) : (authorityHost text).length ≤ text.length := by
  unfold authorityHost
  split
  · rename_i host digits cut
    rw [(splitLast_eq_some cut).1, List.length_append]
    exact Nat.le_add_right _ _
  · exact le_rfl

/-- An authority of the location is the authority of its URL. -/
theorem resolvedUrl_authority_of_some {text : Bytes}
    (found : (Uri.read raw).authority = some text) :
    (resolvedUrl current raw).authority = some (namedAuthority text) := by
  unfold resolvedUrl Uri.transform
  split
  · simp only [Uri.Reference.mapAuthority, found, Option.map_some]
  · simp only [Uri.Reference.mapAuthority, found, Option.map_some, Option.isSome_some, if_true]

/-- Without one, the authority is that of the current endpoint. -/
theorem resolvedUrl_authority_of_none (web : WebLocation raw)
    (absent : (Uri.read raw).authority = none) :
    (resolvedUrl current raw).authority = some (current.host.bytes, some current.port) := by
  rcases web with noScheme | ⟨_, _, _, present⟩
  · unfold resolvedUrl Uri.transform
    simp only [Uri.Reference.mapAuthority, absent, noScheme, Option.map_none, Option.isSome_none,
      Bool.false_eq_true, if_false]
    rfl
  · rw [absent] at present
    cases present

/-- A URL with a readable authority and a short target has an endpoint. -/
theorem exists_standsFor (web : WebLocation raw) (readable : ReadableAuthority raw)
    (fits : (urlTarget (resolvedUrl current raw)).length < maxTargetBytes) :
    ∃ next, StandsFor next (resolvedUrl current raw) := by
  obtain ⟨host, port, known, short⟩ : ∃ host port,
      (resolvedUrl current raw).authority = some (host, port) ∧ host.length < maxHostBytes := by
    cases found : (Uri.read raw).authority with
    | some text =>
        have limit : maxHostBytes = 1024 := rfl
        have within := (readable text found).short
        have less := length_authorityHost_le text
        exact ⟨_, _, resolvedUrl_authority_of_some found, by omega⟩
    | none => exact ⟨_, _, resolvedUrl_authority_of_none web found, current.host.fits⟩
  exact ⟨⟨urlUsesTls (resolvedUrl current raw), _, ⟨host, short⟩, ⟨_, fits⟩⟩,
    (standsFor_iff known).mpr ⟨rfl, rfl, rfl, rfl⟩⟩

end Resolved

/-- **Locations are resolved as references are.** A location that resolves gives the scheme, the
host, the port and the target of the transformed reference; and it resolves exactly when its
authority can be read and the target fits. -/
theorem resolveLocation_transforms (current : Endpoint) (rest raw : Bytes)
    (rooted : current.target.bytes.head? = some slash) (visible : Visible current.target.bytes)
    (visibleRaw : Visible raw) (short : raw.length < maxLocationBytes)
    (filled : dropFragment raw ≠ []) (web : WebLocation raw) :
    (∀ next, resolveLocation current (ascii "GET " ++ current.target.bytes ++ space :: rest) raw =
        some next → StandsFor next (resolvedUrl current raw)) ∧
      ((resolveLocation current
        (ascii "GET " ++ current.target.bytes ++ space :: rest) raw).isSome =
          true ↔
        ReadableAuthority raw ∧
          (urlTarget (resolvedUrl current raw)).length < maxTargetBytes) := by
  have nonempty : current.target.bytes ≠ [] := by
    intro empty
    rw [empty] at rooted
    cases rooted
  have resolves : ∀ next,
      resolveLocation current (ascii "GET " ++ current.target.bytes ++ space :: rest) raw =
        some next ↔
        ReadableAuthority raw ∧ StandsFor next (resolvedUrl current raw) := fun next =>
    resolveLocation_eq_some_iff (requestTarget_of_asked nonempty visible) rooted visibleRaw short
      filled web
  refine ⟨fun next resolved => ((resolves next).mp resolved).2, ?_⟩
  rw [Option.isSome_iff_exists]
  constructor
  · rintro ⟨next, resolved⟩
    obtain ⟨readable, stands⟩ := (resolves next).mp resolved
    refine ⟨readable, ?_⟩
    rw [← stands.target]
    exact next.target.fits
  · rintro ⟨readable, fits⟩
    obtain ⟨next, stands⟩ := exists_standsFor web readable fits
    exact ⟨next, (resolves next).mpr ⟨readable, stands⟩⟩

/-- An endpoint below a directory, with a query. -/
def pageEndpoint : Endpoint := ⟨true, 8443, ⟨ascii "pages", by decide⟩, ⟨ascii "/x/y?q", by decide⟩⟩

theorem resolveLocation_transforms_port :
    (resolveLocation pageEndpoint (ascii "GET " ++ ascii "/x/y?q" ++ space :: ascii "HTTP/1.0")
      (ascii "HTTP://b:81?c/d#e")).isSome = true ∧
    urlUsesTls (resolvedUrl pageEndpoint (ascii "HTTP://b:81?c/d#e")) = false ∧
    urlTarget (resolvedUrl pageEndpoint (ascii "HTTP://b:81?c/d#e")) = ascii "/?c/d" := by
  refine ⟨(resolveLocation_transforms pageEndpoint (ascii "HTTP/1.0") (ascii "HTTP://b:81?c/d#e")
    (by decide) (by decide) (by decide) (by decide) (by decide)
    (Or.inr ⟨ascii "HTTP", by decide, Or.inl (by decide), by decide⟩)).2.mpr ⟨?_, by decide⟩,
    by decide, by decide⟩
  intro text found
  obtain rfl : ascii "b:81" = text := Option.some.inj found
  refine ⟨by decide, by decide, by decide, by decide, by decide, ?_⟩
  intro host digits cut
  obtain ⟨rfl, rfl⟩ : ascii "b" = host ∧ ascii "81" = digits := Prod.mk.inj (Option.some.inj cut)
  decide

end IcuTransport.Redirect
