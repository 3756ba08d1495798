import IcuTransport.Connect.Opening
import IcuTransport.Wire.Reading

/-!
# The reply to a CONNECT request

The program reads the reply of a proxy byte by byte up to its first CRLF CRLF and checks the status
line there, with a test of its own. That test is `parse_status` once more, for a status of 200 to
299: both say that the reply starts with the bytes of `StatusLine`, the one because it counts 14
bytes, the other because the first LF stands after the thirteenth.

A tunnel is made exactly when the reply has a head within the limit whose status says so, and
nothing after that head has been read then (`tunnel_made_iff`): what follows belongs to the
handshake.
-/

set_option autoImplicit false

namespace IcuTransport.Connect

open Ascii TextScan Tracing Wire

/-! ## The status line -/

/-- The text starts with `HTTP/1.0` or `HTTP/1.1`, a space, three digits of the given value, and a
space or a CR. -/
def StatusLine (text : Bytes) (status : ℕ) : Prop :=
  ∃ version first second third gap rest,
    text = ascii "HTTP/1." ++ version :: space :: first :: second :: third :: gap :: rest ∧
      (version = 48 ∨ version = 49) ∧ isDigit first = true ∧ isDigit second = true ∧
      isDigit third = true ∧ (gap = space ∨ gap = cr) ∧
      status = digitValue first * 100 + digitValue second * 10 + digitValue third

/-- The length of the first line, as `parse_status` takes it. -/
def firstLineLength (text : Bytes) : ℕ :=
  match splitFirst lf text with
  | some (line, _) => line.length
  | none => text.length

theorem firstLineLength_le (text : Bytes) : firstLineLength text ≤ text.length := by
  unfold firstLineLength
  cases found : splitFirst lf text with
  | none => exact le_rfl
  | some parts =>
      obtain ⟨line, rest⟩ := parts
      obtain ⟨rfl, _⟩ := splitFirst_eq_some_iff.mp found
      simp

/-- A first line is at least as long as a start of the text that has no LF. -/
theorem le_firstLineLength {start : Bytes} (absent : lf ∉ start) (rest : Bytes) :
    start.length ≤ firstLineLength (start ++ rest) := by
  unfold firstLineLength
  cases found : splitFirst lf (start ++ rest) with
  | none => simp
  | some parts =>
      obtain ⟨line, after⟩ := parts
      obtain ⟨split, _⟩ := splitFirst_eq_some_iff.mp found
      rcases List.append_eq_append_iff.mp split with ⟨gap, rfl, _⟩ | ⟨gap, rfl, tail⟩
      · simp
      · cases gap with
        | nil => simp
        | cons byte gap =>
            obtain ⟨rfl, _⟩ := List.cons.inj tail
            exact absurd (by simp) absent

theorem not_lf_of_isDigit {byte : UInt8} (digit : isDigit byte = true) : lf ≠ byte := by
  rintro rfl
  exact absurd digit (by decide)

theorem parseStatus_eq (text : Bytes) :
    parseStatus text =
      if firstLineLength text < 13 ∨ text.take 7 ≠ ascii "HTTP/1." ∨
          (text.getD 7 nul ≠ 48 ∧ text.getD 7 nul ≠ 49) ∨ text.getD 8 nul ≠ space then none
      else if firstLineLength text - 8 < 4 then none
      else if isDigit (text.getD 9 nul) = false ∨ isDigit (text.getD 10 nul) = false ∨
          isDigit (text.getD 11 nul) = false ∨
          (text.getD 12 nul ≠ space ∧ text.getD 12 nul ≠ cr) then none
      else
        some (digitValue (text.getD 9 nul) * 100 + digitValue (text.getD 10 nul) * 10 +
          digitValue (text.getD 11 nul)) := rfl

/-- The thirteen bytes of a status line have no LF. -/
theorem StatusLine.start_of {text : Bytes} {status : ℕ} (line : StatusLine text status) :
    ∃ start rest, text = start ++ rest ∧ start.length = 13 ∧ lf ∉ start := by
  obtain ⟨version, first, second, third, gap, rest, rfl, versions, digit, digit', digit'', gaps, _⟩
    := line
  refine ⟨ascii "HTTP/1." ++ [version, space, first, second, third, gap], rest, ?_, rfl, ?_⟩
  · rw [List.append_assoc]
    rfl
  · simp only [List.mem_append, List.mem_cons, List.not_mem_nil, or_false, not_or]
    refine ⟨by decide, ?_, by decide, not_lf_of_isDigit digit, not_lf_of_isDigit digit',
      not_lf_of_isDigit digit'', ?_⟩
    · rcases versions with rfl | rfl <;> decide
    · rcases gaps with rfl | rfl <;> decide

/-- The tests of `parse_status`, position by position. -/
theorem parseStatus_positions {text : Bytes} {status : ℕ} :
    parseStatus text = some status ↔
      13 ≤ firstLineLength text ∧ text.take 7 = ascii "HTTP/1." ∧
        (text.getD 7 nul = 48 ∨ text.getD 7 nul = 49) ∧ text.getD 8 nul = space ∧
        isDigit (text.getD 9 nul) = true ∧ isDigit (text.getD 10 nul) = true ∧
        isDigit (text.getD 11 nul) = true ∧ (text.getD 12 nul = space ∨ text.getD 12 nul = cr) ∧
        status = digitValue (text.getD 9 nul) * 100 + digitValue (text.getD 10 nul) * 10 +
          digitValue (text.getD 11 nul) := by
  rw [parseStatus_eq]
  split_ifs with misfit short unread
  · simp only [false_iff]
    rintro ⟨long, start, version, gap, _⟩
    rcases misfit with none | none | none | none
    · omega
    · exact none start
    · rcases version with same | same
      · exact none.1 same
      · exact none.2 same
    · exact none gap
  · simp only [false_iff]
    rintro ⟨long, _⟩
    omega
  · simp only [false_iff]
    rintro ⟨_, _, _, _, first, second, third, gap, _⟩
    simp only [first, second, third, Bool.true_eq_false, false_or] at unread
    rcases gap with same | same
    · exact unread.1 same
    · exact unread.2 same
  · simp only [not_or, not_and_or, not_not, Nat.not_lt, Bool.not_eq_false] at misfit unread
    simp only [Option.some.injEq, misfit, unread, true_and, eq_comm]

/-- **What `parse_status` reads is a status line.** -/
theorem parseStatus_eq_some_iff {text : Bytes} {status : ℕ} :
    parseStatus text = some status ↔ StatusLine text status := by
  rw [parseStatus_positions]
  constructor
  · rintro ⟨long, start, version, blank, first, second, third, gap, rfl⟩
    have size : 6 ≤ (text.drop 7).length := by
      have total := firstLineLength_le text
      rw [List.length_drop]
      omega
    have split : text = ascii "HTTP/1." ++ text.drop 7 := by
      rw [← start, List.take_append_drop]
    generalize text.drop 7 = tail at size split
    subst split
    match tail, size with
    | a :: b :: c :: d :: e :: f :: rest, _ =>
        have eighth : b = space := blank
        subst eighth
        exact ⟨a, c, d, e, f, rest, rfl, version, first, second, third, gap, rfl⟩
  · rintro ⟨version, first, second, third, gap, rest, rfl, versions, digit, digit', digit'', gaps,
      rfl⟩
    refine ⟨?_, rfl, versions, rfl, digit, digit', digit'', gaps, rfl⟩
    obtain ⟨start, after, split, size, absent⟩ := StatusLine.start_of
      ⟨version, first, second, third, gap, rest, rfl, versions, digit, digit', digit'', gaps, rfl⟩
    rw [split, ← size]
    exact le_firstLineLength absent after

theorem eq_fifty_of_digitValue {byte : UInt8} (digit : isDigit byte = true)
    (two : digitValue byte = 2) : byte = 50 := by
  simp only [isDigit, Bool.and_eq_true, decide_eq_true_eq, UInt8.le_iff_toNat_le] at digit
  have low : 48 ≤ byte.toNat := digit.1
  unfold digitValue at two
  apply UInt8.toNat_inj.mp
  show byte.toNat = 50
  omega

/-- **The reply is accepted exactly when it has a status of 200 to 299** and a byte after its status
line. -/
theorem tunnelReplyAccepted_iff {text : Bytes} :
    tunnelReplyAccepted text = true ↔
      14 ≤ text.length ∧ ∃ status, StatusLine text status ∧ 200 ≤ status ∧ status ≤ 299 := by
  simp only [tunnelReplyAccepted, Bool.and_eq_true, Bool.or_eq_true, decide_eq_true_eq,
    List.isPrefixOf_iff_prefix]
  constructor
  · rintro ⟨⟨⟨⟨⟨⟨⟨long, ⟨tail, rfl⟩⟩, version⟩, blank⟩, two⟩, second⟩, third⟩, gap⟩
    have size : 7 ≤ tail.length := by
      rw [List.length_append] at long
      have start : (ascii "HTTP/1.").length = 7 := by decide
      omega
    refine ⟨long, ?_⟩
    match tail, size with
    | a :: b :: c :: d :: e :: f :: rest, _ =>
        have ninth : b = space := Option.some.inj blank
        have tenth : c = 50 := Option.some.inj two
        subst ninth tenth
        have small := digitValue_le_nine second
        have small' := digitValue_le_nine third
        refine ⟨_, ⟨a, 50, d, e, f, rest, rfl, ?_, by decide, second, third, ?_, rfl⟩, ?_, ?_⟩
        · exact version.imp Option.some.inj Option.some.inj
        · exact gap.imp Option.some.inj Option.some.inj
        · have value : digitValue 50 = 2 := by decide
          omega
        · have value : digitValue 50 = 2 := by decide
          omega
  · rintro ⟨long, status, ⟨version, first, second, third, gap, rest, rfl, versions, digit, digit',
      digit'', gaps, rfl⟩, low, high⟩
    have two : first = 50 := by
      have small := digitValue_le_nine digit'
      have small' := digitValue_le_nine digit''
      exact eq_fifty_of_digitValue digit (by omega)
    subst two
    refine ⟨⟨⟨⟨⟨⟨⟨long, List.prefix_append _ _⟩, ?_⟩, rfl⟩, rfl⟩, digit'⟩, digit''⟩, ?_⟩
    · exact versions.imp (congrArg some) (congrArg some)
    · exact gaps.imp (congrArg some) (congrArg some)

/-- **The two tests agree on a complete head.** -/
theorem tunnelReplyAccepted_iff_parseStatus {head : Bytes} (isHead : IsHead head) :
    tunnelReplyAccepted head = true ↔
      ∃ status, parseStatus head = some status ∧ 200 ≤ status ∧ status ≤ 299 := by
  rw [tunnelReplyAccepted_iff]
  simp only [parseStatus_eq_some_iff]
  constructor
  · exact fun accepted => accepted.2
  · rintro ⟨status, line, range⟩
    refine ⟨?_, status, line, range⟩
    obtain ⟨start, rest, rfl, size, absent⟩ := line.start_of
    -- a head has an LF, which these bytes have not
    have ends : lf ∈ start ++ rest := isHead.1.subset (by decide)
    have more : rest ≠ [] := by
      rintro rfl
      exact absent (by simpa using ends)
    have positive := List.length_pos_of_ne_nil more
    rw [List.length_append]
    omega

/-! ## Reading the reply -/

/-- The bytes that were received in an event. -/
def Event.receivedBytes : Event → Bytes
  | .received _ bytes => bytes
  | _ => []

/-- The bytes that a trace received. -/
def receivedBytes (events : List Event) : Bytes := events.flatMap Event.receivedBytes

@[simp] theorem receivedBytes_nil : receivedBytes [] = [] := rfl

@[simp] theorem receivedBytes_cons (event : Event) (events : List Event) :
    receivedBytes (event :: events) = event.receivedBytes ++ receivedBytes events := rfl

@[simp] theorem receivedBytes_append (first second : List Event) :
    receivedBytes (first ++ second) = receivedBytes first ++ receivedBytes second :=
  List.flatMap_append

/-- Sending a request receives nothing. -/
theorem receivedBytes_sendTunnelRequest (socket : Handle) (sends : List ℕ) (bytes : Bytes) :
    receivedBytes (sendTunnelRequest socket sends bytes).events = [] := by
  fun_induction sendTunnelRequest socket sends bytes with
  | case1 => rfl
  | case2 => rfl
  | case3 more sends bytes _ ih =>
      rw [Traced.events_bind, receivedBytes_append, ih]
      rfl

/-- A first CRLF CRLF ends with the next byte, or is still to come. -/
theorem isHead_concat_iff {response : Bytes} {byte : UInt8}
    (pending : ¬ crlf ++ crlf <:+: response) :
    IsHead (response ++ [byte]) ↔ crlf ++ crlf <:+ response ++ [byte] := by
  rw [IsHead, List.dropLast_concat]
  exact and_iff_left pending

/-- **A reply with a head is read through it**, and not beyond. -/
theorem receiveTunnelReply_of_isHead {socket : Handle} {response taken : Bytes}
    (pending : ¬ crlf ++ crlf <:+: response) (isHead : IsHead (response ++ taken))
    (bound : (response ++ taken).length ≤ maxHeaderBytes) (rest : Bytes) :
    receiveTunnelReply socket (taken ++ rest) response =
      ⟨.complete (tunnelReplyAccepted (response ++ taken)),
        taken.map fun byte => .received [socket] [byte]⟩ := by
  induction taken generalizing response with
  | nil =>
      rw [List.append_nil] at isHead
      exact absurd isHead.1.isInfix pending
  | cons byte more ih =>
      have room : response.length < maxHeaderBytes := by
        rw [List.length_append, List.length_cons] at bound
        omega
      have shift : response ++ byte :: more = response ++ [byte] ++ more := by simp
      rw [shift] at isHead bound ⊢
      rw [List.cons_append, receiveTunnelReply, if_pos room]
      by_cases ends : crlf ++ crlf <:+ response ++ [byte]
      · -- two heads of one text are the same head
        have last : more = [] := by
          have first := findHeaderEnd_append ((isHead_concat_iff pending).mpr ends) more
          have whole := findHeaderEnd_append isHead []
          rw [List.append_nil, first] at whole
          exact congrArg Prod.snd (Option.some.inj whole)
        subst last
        rw [if_pos (List.isSuffixOf_iff_suffix.mpr ends), List.append_nil]
        rfl
      · have pending' : ¬ crlf ++ crlf <:+: response ++ [byte] := by
          rw [List.infix_concat_iff]
          exact not_or.mpr ⟨ends, pending⟩
        rw [if_neg (fun suffix => ends (List.isSuffixOf_iff_suffix.mp suffix)),
          ih pending' isHead bound]
        rfl

/-- **A reply that is complete has a head.** -/
theorem isHead_of_receiveTunnelReply {socket : Handle} {reply response : Bytes} {accepted : Bool}
    (pending : ¬ crlf ++ crlf <:+: response)
    (complete : (receiveTunnelReply socket reply response).value = .complete accepted) :
    ∃ taken rest, reply = taken ++ rest ∧ IsHead (response ++ taken) ∧
      (response ++ taken).length ≤ maxHeaderBytes := by
  induction reply generalizing response with
  | nil =>
      rw [receiveTunnelReply, Traced.value_pure] at complete
      split at complete <;> cases complete
  | cons byte reply ih =>
      rw [receiveTunnelReply] at complete
      split at complete
      · rename_i room
        by_cases ends : crlf ++ crlf <:+ response ++ [byte]
        · refine ⟨[byte], reply, rfl, (isHead_concat_iff pending).mpr ends, ?_⟩
          rw [List.length_append, List.length_singleton]
          omega
        · have pending' : ¬ crlf ++ crlf <:+: response ++ [byte] := by
            rw [List.infix_concat_iff]
            exact not_or.mpr ⟨ends, pending⟩
          rw [if_neg (fun suffix => ends (List.isSuffixOf_iff_suffix.mp suffix)),
            Traced.value_bind] at complete
          obtain ⟨taken, rest, rfl, isHead, bound⟩ := ih pending' complete
          rw [List.append_assoc] at isHead bound
          exact ⟨byte :: taken, rest, rfl, isHead, bound⟩
      · cases complete

theorem receivedBytes_singles (socket : Handle) (bytes : Bytes) :
    receivedBytes (bytes.map fun byte => .received [socket] [byte]) = bytes := by
  induction bytes with
  | nil => rfl
  | cons byte rest ih => rw [List.map_cons, receivedBytes_cons, ih]; rfl

/-! ## The tunnel -/

/-- A tunnel is made when the reply is complete and accepted. -/
theorem establishProxyTunnel_value {calls : TunnelCalls} {socket : Handle} {host : Bytes}
    {port : Int32} (errno : Errno)
    (fits : (tunnelRequest host port).length < tunnelRequestBytes)
    (sent : (sendTunnelRequest socket calls.sends (tunnelRequest host port)).value = true) :
    (establishProxyTunnel calls socket host port errno).value.1 = true ↔
      (receiveTunnelReply socket calls.reply []).value = .complete true := by
  rw [establishProxyTunnel, if_neg (Nat.not_le.mpr fits), Traced.value_bind, sent]
  simp only [Bool.true_eq_false, if_false, Traced.value_bind]
  cases (receiveTunnelReply socket calls.reply []).value with
  | complete accepted => simp
  | tooLong => simp
  | stopped => simp

/-- What is received for a tunnel is what is received of the reply. -/
theorem receivedBytes_establishProxyTunnel {calls : TunnelCalls} {socket : Handle} {host : Bytes}
    {port : Int32} (errno : Errno)
    (fits : (tunnelRequest host port).length < tunnelRequestBytes)
    (sent : (sendTunnelRequest socket calls.sends (tunnelRequest host port)).value = true) :
    receivedBytes (establishProxyTunnel calls socket host port errno).events =
      receivedBytes (receiveTunnelReply socket calls.reply []).events := by
  rw [establishProxyTunnel, if_neg (Nat.not_le.mpr fits), Traced.events_bind, receivedBytes_append,
    receivedBytes_sendTunnelRequest, sent, List.nil_append]
  simp only [Bool.true_eq_false, if_false, Traced.events_bind, receivedBytes_append]
  cases (receiveTunnelReply socket calls.reply []).value with
  | complete accepted => simp
  | tooLong => simp
  | stopped => simp

/-- **The tunnel reply check agrees with `parse_status`, and consumes nothing of the tunnelled
stream.** After a CONNECT request that was sent in full, a tunnel is made exactly when what the
proxy sends has its first CRLF CRLF within 64 KiB and `parse_status` finds a status of 200 to 299
in the bytes through it. When it is made, exactly those bytes have been received. -/
theorem tunnel_made_iff (calls : TunnelCalls) (socket : Handle) (host : Bytes) (port : Int32)
    (errno : Errno) (fits : (tunnelRequest host port).length < tunnelRequestBytes)
    (sent : (sendTunnelRequest socket calls.sends (tunnelRequest host port)).value = true) :
    ((establishProxyTunnel calls socket host port errno).value.1 = true ↔
      ∃ head stream, calls.reply = head ++ stream ∧ IsHead head ∧ head.length ≤ 65536 ∧
        ∃ status, parseStatus head = some status ∧ 200 ≤ status ∧ status ≤ 299) ∧
      ((establishProxyTunnel calls socket host port errno).value.1 = true →
        ∀ head stream, calls.reply = head ++ stream → IsHead head →
          receivedBytes (establishProxyTunnel calls socket host port errno).events = head) := by
  have pending : ¬ crlf ++ crlf <:+: [] := by decide
  have read : ∀ head stream, calls.reply = head ++ stream → IsHead head →
      head.length ≤ maxHeaderBytes → receiveTunnelReply socket calls.reply [] =
        ⟨.complete (tunnelReplyAccepted head), head.map fun byte => .received [socket] [byte]⟩ := by
    intro head stream split isHead bound
    rw [split]
    exact receiveTunnelReply_of_isHead pending isHead bound stream
  rw [establishProxyTunnel_value errno fits sent,
    receivedBytes_establishProxyTunnel errno fits sent]
  constructor
  · constructor
    · intro complete
      obtain ⟨head, stream, split, isHead, bound⟩ := isHead_of_receiveTunnelReply pending complete
      rw [List.nil_append] at isHead bound
      rw [read head stream split isHead bound] at complete
      exact ⟨head, stream, split, isHead, bound,
        (tunnelReplyAccepted_iff_parseStatus isHead).mp (TunnelReply.complete.inj complete)⟩
    · rintro ⟨head, stream, split, isHead, bound, status⟩
      rw [read head stream split isHead bound,
        (tunnelReplyAccepted_iff_parseStatus isHead).mpr status]
  · intro complete head stream split isHead
    obtain ⟨taken, rest, split', isHead', bound⟩ := isHead_of_receiveTunnelReply pending complete
    rw [List.nil_append] at isHead' bound
    have same : some (head, stream) = some (taken, rest) := by
      rw [← findHeaderEnd_append isHead stream, ← findHeaderEnd_append isHead' rest, ← split,
        ← split']
    obtain ⟨rfl, rfl⟩ := Prod.mk.inj (Option.some.inj same)
    rw [read head stream split isHead bound, receivedBytes_singles]

/-- The calls of a proxy that makes a tunnel and sends one more byte. -/
def readyProxy : TunnelCalls :=
  ⟨[199], .closed, ascii "HTTP/1.1 200 \r\n\r\nx", .closed⟩

theorem tunnel_made_iff_ready :
    (establishProxyTunnel readyProxy ⟨.socket, 3⟩ (ascii "example.com") 443 (.other 0)).value.1 =
        true ∧
      receivedBytes (establishProxyTunnel readyProxy ⟨.socket, 3⟩ (ascii "example.com") 443
        (.other 0)).events = ascii "HTTP/1.1 200 \r\n\r\n" := by
  obtain ⟨made, consumed⟩ := tunnel_made_iff readyProxy ⟨.socket, 3⟩ (ascii "example.com") 443
    (.other 0) (by decide) (by decide)
  have ready := made.mpr ⟨ascii "HTTP/1.1 200 \r\n\r\n", ascii "x", by decide, by decide,
    by decide, 200, by decide, by decide, by decide⟩
  exact ⟨ready, consumed ready _ (ascii "x") (by decide) (by decide)⟩

end IcuTransport.Connect
