import IcuTransport.Client.Confidential

/-!
# What a proxy is asked for

A redirect names the next host, and the host is written into the CONNECT request of a tunnel. Hosts
of a run are visible text, so the request of a tunnel is one request line and one header line, and
its authority says the host and the port. It fits into its buffer, and two endpoints with one
request are one endpoint (`tunnel_requests_exact`).
-/

set_option autoImplicit false

namespace IcuTransport.Client

open Ascii TextScan TurnLoop Tracing Wire Redirect Capture Connect

/-! ## The text of a request -/

/-- A host as it stands before a port. -/
def tunnelName (host : Bytes) : Bytes :=
  if colon ∈ host then [openBracket] ++ host ++ [closeBracket] else host

/-- The authority that a proxy is asked for. -/
def tunnelAuthority (host : Bytes) (port : Int32) : Bytes :=
  tunnelName host ++ colon :: decimalInt port.toInt

/-- The request line of a tunnel. -/
def connectLine (authority : Bytes) : Bytes := ascii "CONNECT " ++ authority ++ ascii " HTTP/1.0"

theorem tunnelRequest_eq (host : Bytes) (port : Int32) :
    tunnelRequest host port = connectLine (tunnelAuthority host port) ++ crlf ++
      (joinLines crlf [hostLine (tunnelAuthority host port)] ++ crlf) := by
  have middle : ascii " HTTP/1.0\r\nHost: " = ascii " HTTP/1.0" ++ crlf ++ ascii "Host: " :=
    by decide
  simp only [tunnelRequest, middle, connectLine, tunnelAuthority, tunnelName, hostLine,
    joinLines_cons, joinLines_nil, List.append_assoc, List.append_nil, List.singleton_append]

section Visible

variable {host : Bytes} {port : Int32}

theorem visible_tunnelName (visible : Visible host) : Visible (tunnelName host) := by
  unfold tunnelName
  split
  · exact (Visible.append (by decide : Visible [openBracket]) visible).append (by decide)
  · exact visible

theorem visible_tunnelAuthority (visible : Visible host) : Visible (tunnelAuthority host port) :=
  (visible_tunnelName visible).append
    (Visible.append (by decide : Visible [colon]) (visible_decimalInt _))

/-- The request line ends where its CRLF stands. -/
theorem tunnelRequest_cut (visible : Visible host) :
    splitInfix crlf (tunnelRequest host port) = some (connectLine (tunnelAuthority host port),
      joinLines crlf [hostLine (tunnelAuthority host port)] ++ crlf) := by
  rw [tunnelRequest_eq]
  refine splitInfix_append (firstAfter_crlf ?_) _
  simp only [connectLine, List.mem_append, not_or]
  exact ⟨⟨by decide, (visible_tunnelAuthority visible).not_mem (by decide)⟩, by decide⟩

/-- **The one header line of a tunnel is its `Host` line.** -/
theorem requestHeaderLines_tunnelRequest (visible : Visible host) :
    requestHeaderLines (tunnelRequest host port) = [hostLine (tunnelAuthority host port)] := by
  refine requestHeaderLines_eq (tunnelRequest_cut visible) (headerBlock_joinLines ?_)
  intro line member
  rw [List.mem_singleton.mp member]
  exact hostLine_cut (visible_tunnelAuthority visible)

theorem length_tunnelRequest_lt (fits : host.length < maxHostBytes) :
    (tunnelRequest host port).length < tunnelRequestBytes := by
  have low := port.le_toInt
  have high := port.toInt_lt
  have digits : (decimalInt port.toInt).length ≤ 10 + 1 :=
    length_decimalInt_le (by decide) (by omega)
  have name : (tunnelName host).length ≤ host.length + 2 := by
    unfold tunnelName
    split
    · simp
    · omega
  have frame : (ascii "CONNECT ").length + (ascii " HTTP/1.0").length + (ascii "Host: ").length +
      crlf.length + crlf.length + crlf.length = 29 := by decide
  have room : tunnelRequestBytes = maxHostBytes * 2 + 128 := rfl
  rw [tunnelRequest_eq]
  simp only [connectLine, tunnelAuthority, hostLine, joinLines_cons, joinLines_nil,
    List.length_append, List.length_cons, List.length_nil] at frame ⊢
  omega

end Visible

/-! ## Reading it back -/

theorem colon_not_mem_decimalInt (number : ℤ) : colon ∉ decimalInt number := by
  cases number with
  | ofNat number =>
      exact fun member => absurd ((isNumeral_decimal number).2 colon member) (by decide)
  | negSucc number =>
      rw [decimalInt, List.mem_cons, not_or]
      exact ⟨by decide,
        fun member => absurd ((isNumeral_decimal (number + 1)).2 colon member) (by decide)⟩

/-- An authority is cut at its last colon. -/
theorem tunnelAuthority_cut (host : Bytes) (port : Int32) :
    splitLast colon (tunnelAuthority host port) =
      some (tunnelName host, decimalInt port.toInt) :=
  splitLast_append_cons (colon_not_mem_decimalInt _) _

theorem tunnelName_injective : Function.Injective tunnelName := by
  have kept : ∀ host, colon ∈ tunnelName host ↔ colon ∈ host := by
    intro host
    unfold tunnelName
    split
    · rename_i member
      simp [member]
    · rfl
  intro first second same
  have colons : colon ∈ first ↔ colon ∈ second := by rw [← kept first, same, kept second]
  unfold tunnelName at same
  by_cases member : colon ∈ first
  · rw [if_pos member, if_pos (colons.mp member)] at same
    exact List.append_cancel_left (List.append_cancel_right same)
  · rwa [if_neg member, if_neg fun other => member (colons.mpr other)] at same

theorem decimal_injective : Function.Injective decimal := by
  intro first second same
  rw [← numeralValue_decimal first, same, numeralValue_decimal]

theorem decimalInt_injective : Function.Injective decimalInt := by
  have unsigned : ∀ number rest, decimal number ≠ 45 :: rest := by
    intro number rest same
    have digit := (isNumeral_decimal number).2 45 (same ▸ List.mem_cons_self)
    exact absurd digit (by decide)
  intro first second same
  cases first with
  | ofNat first =>
      cases second with
      | ofNat second => exact congrArg Int.ofNat (decimal_injective same)
      | negSucc second => exact absurd same (unsigned _ _)
  | negSucc first =>
      cases second with
      | ofNat second => exact absurd same.symm (unsigned _ _)
      | negSucc second =>
          have digits := decimal_injective (List.cons.inj same).2
          rw [Nat.add_right_cancel digits]

/-- **Two endpoints with one request are one endpoint.** -/
theorem tunnelRequest_injective {first second : Bytes} {port other : Int32}
    (visible : Visible first) (visible' : Visible second)
    (same : tunnelRequest first port = tunnelRequest second other) :
    first = second ∧ port = other := by
  have cut : splitInfix crlf (tunnelRequest first port) = _ := tunnelRequest_cut visible
  rw [same, tunnelRequest_cut visible'] at cut
  have lines := (Prod.mk.inj (Option.some.inj cut)).1
  have authorities : tunnelAuthority second other = tunnelAuthority first port :=
    List.append_cancel_left (List.append_cancel_right lines)
  have parts := tunnelAuthority_cut first port
  rw [← authorities, tunnelAuthority_cut] at parts
  obtain ⟨names, digits⟩ := Prod.mk.inj (Option.some.inj parts)
  exact ⟨(tunnelName_injective names).symm, (Int32.toInt_inj.mp (decimalInt_injective digits)).symm⟩

/-! ## The tunnels of a run -/

theorem text_of_visible {capacity : ℕ} {array : CharArray capacity}
    (visible : Visible array.bytes) :
    array.text = array.bytes :=
  cString_eq_self_iff.mpr (visible.not_mem (by decide))

/-- A hop leads from a visible host to a visible host. -/
theorem Hop.visible_host {call : Call} {state later : LoopState} (hop : Hop call state later)
    (visible : Visible state.current.host.bytes) : Visible later.current.host.bytes := by
  obtain ⟨location, resolved⟩ := hop.resolved
  rcases resolveLocation_cases resolved with ⟨host, _⟩ | ⟨_, _, host, _⟩
  · exact host.visible
  · rw [host]
    exact visible

/-- **The hosts of a run are visible** if the host of the call is. -/
theorem visible_hosts {fuel : ℕ} {world : World} {call : Call} {outcome : Outcome}
    (visible : Visible call.host) (ran : sendRequest fuel world call = some outcome)
    {exchange : Exchange} (sent : exchange ∈ outcome.exchanges) :
    Visible exchange.endpoint.host.bytes := by
  rcases sendRequest_eq_some ran with ⟨_, _, _, rfl⟩ | ⟨state, visits, _, started, finished, all⟩
  · cases sent
  · rw [all] at sent
    obtain ⟨visit, member, rfl⟩ := List.mem_map.mp sent
    obtain ⟨hop, found⟩ := List.mem_iff_getElem?.mp member
    refine visits_induction finished (motive := fun _ visit => Visible visit.current.host.bytes)
      (started.host ▸ visible) ?_ found
    exact fun _ first second _ _ went visible => (hop_of_turn went).visible_host visible

/-- **A proxy is asked for the endpoint and for nothing else.** In a run of a call whose host is
visible text, what an exchange with TLS exposes is part of a text that fits the buffer, and that is
read as one request line, with an authority of visible text that is cut at its last colon into the
host and the port, and one `Host` line that repeats the authority. No other endpoint of the run has
that text. -/
theorem tunnel_requests_exact (fuel : ℕ) (world : NativeWorld) (call : Call)
    (ran : Traced Event Outcome) (visible : Visible call.host)
    (returned : sendRequestTraced fuel world call = some ran) (hop : ℕ) (exchange : Exchange)
    (conversation : List Event) (sent : ran.value.exchanges[hop]? = some exchange)
    (traced : (conversations ran.events)[hop]? = some conversation)
    (secure : exchange.endpoint.useTls = true) :
    ∃ request authority,
      exposedBytes conversation <+: request ∧ request.length < tunnelRequestBytes ∧
      Visible authority ∧
      splitInfix crlf request =
        some (connectLine authority, joinLines crlf [hostLine authority] ++ crlf) ∧
      requestHeaderLines request = [hostLine authority] ∧
      splitLast colon authority =
        some (tunnelName exchange.endpoint.host.bytes, decimalInt exchange.endpoint.port.toInt) ∧
      ∀ other ∈ ran.value.exchanges,
        tunnelRequest other.endpoint.host.text other.endpoint.port = request →
          other.endpoint.host = exchange.endpoint.host ∧
            other.endpoint.port = exchange.endpoint.port := by
  have plain : sendRequest fuel world.toWorld call = some ran.value := by
    rw [← value_sendRequestTraced, returned, Option.map_some]
  have shown := visible_hosts visible plain (List.mem_of_getElem? sent)
  have confined := confided_of_run returned sent traced
  have exposed := confined.exposed
  rw [secure, if_pos rfl, List.append_nil, Exchange.tunnelText, text_of_visible shown] at exposed
  refine ⟨tunnelRequest exchange.endpoint.host.bytes exchange.endpoint.port,
    tunnelAuthority exchange.endpoint.host.bytes exchange.endpoint.port,
    exposed.trans (tunnelText_within _ _ _ _), length_tunnelRequest_lt exchange.endpoint.host.fits,
    visible_tunnelAuthority shown, tunnelRequest_cut shown,
    requestHeaderLines_tunnelRequest shown, tunnelAuthority_cut _ _, ?_⟩
  intro other member same
  have shown' := visible_hosts visible plain member
  rw [text_of_visible shown'] at same
  obtain ⟨hosts, ports⟩ := tunnelRequest_injective shown' shown same
  exact ⟨CharArray.bytes_inj.mp hosts, ports⟩

theorem tunnel_requests_exact_proxied :
    ∃ request authority, exposedBytes secureRun.events <+: request ∧
      request.length < tunnelRequestBytes ∧ requestHeaderLines request = [hostLine authority] ∧
      splitLast colon authority = some (ascii "a", ascii "443") := by
  have returned : sendRequestTraced 9 proxiedWorld secureCall = some secureRun :=
    (Option.some_get _).symm
  obtain ⟨request, authority, exposed, fits, _, _, lines, cut, _⟩ :=
    tunnel_requests_exact 9 proxiedWorld secureCall secureRun (by decide) returned 0 secureExchange
      secureRun.events (by decide +kernel) (by decide +kernel) rfl
  exact ⟨request, authority, exposed, fits, lines, cut⟩

end IcuTransport.Client
