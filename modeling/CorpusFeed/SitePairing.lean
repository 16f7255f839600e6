import CorpusFeed.Runs
import CorpusFeed.SiteConnection

/-! Which response a call of the client returns. The streams pair a request and a
response by position only, so a line that is left unread shifts all later ones. -/

namespace CorpusFeed

theorem asBytes_append (t u : Text) : asBytes (t ++ u) = asBytes t ++ asBytes u := List.flatMap_append

theorem asBytes_line (t : Text) : asBytes (t ++ ['\n']) = asBytes t ++ [lineFeed] := asBytes_append t ['\n']

def frameText (request : SessionRequest) : Text := (siteEnvelope request).print

def replyText (response : SessionResponse) : Text := (siteResponseEnvelope response).print

namespace SiteServer

variable {service : SiteService} {writeFails : Option Nat} {s : SiteServer}

theorem frame_eq (request : SessionRequest) : SiteConnection.frame request = asBytes (frameText request) ++ [lineFeed] :=
  asBytes_line (frameText request)

theorem responseBytes_eq (response : SessionResponse) : responseBytes response = asBytes (replyText response) ++ [lineFeed] :=
  asBytes_line (replyText response)

theorem frame_not_mem (request : SessionRequest) : lineFeed ∉ asBytes (frameText request) :=
  lineFeed_not_mem (Json.newline_not_mem_print _)

theorem reply_not_mem (response : SessionResponse) : lineFeed ∉ asBytes (replyText response) :=
  lineFeed_not_mem (Json.newline_not_mem_print _)

theorem trim_frameText (request : SessionRequest) : trim (frameText request) = frameText request := by
  obtain ⟨t, ht⟩ := Json.print_object_ends
    [("proto".toList, .number (numberOfInt protocolVersion)), ("request".toList, request.value)]
  rw [frameText, siteEnvelope, envelope, ht]
  exact trim_between rfl rfl

theorem trim_replyText (response : SessionResponse) : trim (replyText response) = replyText response := by
  obtain ⟨t, ht⟩ := Json.print_object_ends
    [("proto".toList, .number (numberOfInt protocolVersion)), ("response".toList, response.value)]
  rw [replyText, siteResponseEnvelope, envelope, ht]
  exact trim_between rfl rfl

theorem serveBytes_closed (h : s.closed = true) (bytes : Bytes) : s.serveBytes service writeFails bytes = (s, []) := by
  induction bytes with
  | nil => rfl
  | cons b rest ih => simp [serveBytes, serveByte, h, ih]

theorem serveBytes_line {body : Bytes} (hopen : s.closed = false) (hfeed : lineFeed ∉ body)
    (hmax : (s.buf ++ body).length ≤ maxSiteLineBytes) :
    s.serveBytes service writeFails (body ++ [lineFeed]) =
      cutReply writeFails (serveLine service { s with buf := s.buf ++ body } (fromUtf8Lossy (s.buf ++ body))) := by
  obtain ⟨buf, closed, reported, dispatched⟩ := s
  obtain rfl : closed = false := hopen
  induction body generalizing buf with
  | nil => simp [serveBytes, serveByte, pushByte]
  | cons b body ih =>
    obtain ⟨hb, hfeed'⟩ := not_or.mp (List.mem_cons.not.mp hfeed)
    have hb' : b ≠ lineFeed := Ne.symm hb
    have hlength : ¬ maxSiteLineBytes < (buf ++ [b]).length := by
      simp only [List.length_append, List.length_cons, List.length_nil] at hmax ⊢
      omega
    have hnext := ih hfeed' (buf ++ [b]) (by simpa using hmax)
    simp only [List.append_assoc, List.singleton_append] at hnext
    simp only [List.cons_append, serveBytes, serveByte, Bool.false_eq_true, if_false, pushByte, hb', hlength, hnext,
      List.nil_append]

/-- The frame is not too long for the listener, which can decode it. -/
def Accepted (service : SiteService) (request : SessionRequest) (received : SessionRequest) : Prop :=
  (asBytes (frameText request)).length ≤ maxSiteLineBytes ∧
    decodeSiteEnvelopeLine service.serde (frameText request) = .ok received

/-- The listener after it dispatched a request. -/
def answered (service : SiteService) (s : SiteServer) (received : SessionRequest) : SiteServer × Bytes :=
  ({ s with buf := [],
            dispatched := s.dispatched ++ [(received, service.dispatch s.dispatched.length received)] },
    responseBytes (service.dispatch s.dispatched.length received))

theorem serveBytes_frame {request received : SessionRequest} (hopen : s.closed = false) (hbuf : s.buf = [])
    (haccepted : Accepted service request received) :
    s.serveBytes service writeFails (SiteConnection.frame request) = cutReply writeFails (s.answered service received) := by
  obtain ⟨hmax, hdecode⟩ := haccepted
  have hne : frameText request ≠ [] := by
    obtain ⟨c, rest, hhead, _⟩ := Json.print_head (siteEnvelope request)
    rw [frameText, hhead]
    exact List.cons_ne_nil c rest
  rw [frame_eq, serveBytes_line hopen (frame_not_mem request) (by simpa [hbuf] using hmax)]
  simp only [serveLine, hbuf, List.nil_append, fromUtf8Lossy_asBytes, trim_frameText, hne, if_false, hdecode, answered]

end SiteServer

namespace SiteConnection

open SiteServer

variable {service : SiteService} {c : SiteConnection} {call : ClientCall} {received : SessionRequest}
  {response : SessionResponse}

theorem not_isBracket_of_whiteSpace {x : Char} (h : isWhiteSpace x = true) : Scan.isBracket x = false := by
  rw [Bool.eq_false_iff]
  intro hbracket
  simp only [Scan.isBracket, Bool.or_eq_true, decide_eq_true_eq] at hbracket
  rcases hbracket with ((rfl | rfl) | rfl) | rfl <;> cases h

theorem not_isBracket_of_notAscii {x : Char} (h : 128 ≤ x.toNat) : Scan.isBracket x = false := by
  rw [Bool.eq_false_iff]
  intro hbracket
  simp only [Scan.isBracket, Bool.or_eq_true, decide_eq_true_eq] at hbracket
  rcases hbracket with ((rfl | rfl) | rfl) | rfl <;> revert h <;> decide

/-- The start of a printed object is read as a text with an open bracket. -/
theorem depth_of_read_cut (fields : List (Text × Json)) {k : Nat} (hpos : 0 < k)
    (hk : k < (asBytes (Json.object fields).print).length) :
    0 < (Scan.run ⟨.outside, 0⟩ (trim (fromUtf8Lossy ((asBytes (Json.object fields).print).take k)))).depth := by
  obtain ⟨j, hj, tail, hread, htail⟩ := fromUtf8Lossy_take _ hk
  obtain ⟨t, ht⟩ := Json.print_object_ends fields
  obtain ⟨u, hu⟩ : ∃ u, fromUtf8Lossy ((asBytes (Json.object fields).print).take k) = '{' :: u := by
    obtain ⟨n, rfl⟩ := Nat.exists_eq_succ_of_ne_zero (Nat.ne_of_gt hpos)
    rw [ht]
    exact ⟨_, fromUtf8Lossy_cons '{' ((asBytes (t ++ ['}'])).take n)⟩
  have hjpos : 0 < j := by
    by_contra hzero
    obtain rfl : j = 0 := by omega
    rw [List.take_zero, List.nil_append] at hread
    have hhead := htail '{' (by rw [← hread, hu]; exact List.mem_cons_self)
    exact absurd hhead (by decide)
  obtain ⟨space, hspace, htrim⟩ := trim_cons u (show isWhiteSpace '{' = false from rfl)
  rw [← hu] at htrim
  have hwhole := congrArg (fun text => (Scan.run ⟨.outside, 0⟩ text).depth) htrim
  rw [hread] at hwhole
  simp only [Scan.run_append] at hwhole
  rw [Scan.run_depth fun x hx => not_isBracket_of_notAscii (htail x hx),
    Scan.run_depth fun x hx => not_isBracket_of_whiteSpace (hspace x hx), ← hread] at hwhole
  exact hwhole ▸ Json.depth_of_cut fields hjpos hj

/-- A response that is cut short decodes to an error. -/
theorem decode_cut {k : Nat} (hpos : 0 < k) (hk : k < (asBytes (replyText response)).length) (r : SessionResponse) :
    decodeSiteResponseEnvelopeLine service.serde (trim (fromUtf8Lossy ((asBytes (replyText response)).take k))) ≠ .ok r := by
  intro h
  have hdepth := depth_of_read_cut _ hpos hk
  unfold decodeSiteResponseEnvelopeLine decodeEnvelopeLine at h
  split at h
  · cases h
  · next value hparse =>
    have hclosed := service.serde.parse_closed _ _ hparse
    rw [Json.Closed] at hclosed
    rw [replyText, siteResponseEnvelope, envelope] at hclosed
    rw [hclosed] at hdepth
    exact absurd hdepth (by decide)

/-- What the client makes of its own response, whole or cut short. -/
theorem decode_own {closed : Bool} {n : Nat} {r : SessionResponse}
    (h : decodeRead service.serde (readBoundedLine maxLineBytes closed [] ((responseBytes response).take n)).1 = .ok r) :
    decodeSiteResponseEnvelopeLine service.serde (replyText response) = .ok r := by
  rw [responseBytes_eq] at h
  by_cases hcut : n ≤ (asBytes (replyText response)).length
  · rw [List.take_append_of_le_length hcut] at h
    have hfeed : lineFeed ∉ (asBytes (replyText response)).take n := fun hmem =>
      reply_not_mem response (List.mem_of_mem_take hmem)
    by_cases hmax : ((asBytes (replyText response)).take n).length ≤ maxLineBytes
    · rw [readBoundedLine_cut hfeed (by simpa using hmax)] at h
      cases closed with
      | false => simp [decodeRead] at h
      | true =>
        by_cases hzero : n = 0
        · simp [hzero, decodeRead] at h
        · have hne : (asBytes (replyText response)).take n ≠ [] :=
            List.ne_nil_of_length_pos (by simp only [List.length_take]; omega)
          simp only [if_true, List.nil_append, hne, if_false, decodeRead] at h
          by_cases hall : n = (asBytes (replyText response)).length
          · rw [hall, List.take_length, fromUtf8Lossy_asBytes, trim_replyText] at h
            exact h
          · exact absurd h (decode_cut (by omega) (by omega) r)
    · have hover := @readBoundedLine_oversize maxLineBytes closed _ [] [] hfeed (Nat.zero_le _) (by simpa using hmax)
      rw [List.append_nil] at hover
      rw [hover] at h
      cases h
  · rw [List.take_of_length_le (by simp; omega)] at h
    by_cases hmax : (asBytes (replyText response)).length ≤ maxLineBytes
    · rw [readBoundedLine_line (reply_not_mem response) (by simpa using hmax)] at h
      simpa only [decodeRead, List.nil_append, fromUtf8Lossy_asBytes, trim_replyText] using h
    · rw [readBoundedLine_oversize (reply_not_mem response) (Nat.zero_le _) (by simpa using hmax)] at h
      cases h

/-- Nothing of an earlier call is left in the streams, and the listener reads the
frame of this one and can decode it. -/
def Clear (service : SiteService) (c : SiteConnection) (call : ClientCall) : Prop :=
  c.unread = [] ∧ (c.server.closed = false →
    c.server.buf = [] ∧ call.serverReadFails = none ∧ ∃ received, Accepted service call.request received)

/-- A call that returns a response returns the one that the dispatcher gave, in
this call, to the request of this call. -/
def AnswersOwn (service : SiteService) (c : SiteConnection) (call : ClientCall) : Prop :=
  ∀ r, (c.request service call).2 = .ok r → ∃ received,
    decodeSiteEnvelopeLine service.serde (frameText call.request) = .ok received ∧
    (c.step service call).server.dispatched =
      c.server.dispatched ++ [(received, service.dispatch c.server.dispatched.length received)] ∧
    decodeSiteResponseEnvelopeLine service.serde (replyText (service.dispatch c.server.dispatched.length received)) = .ok r

/-- Once a framing failure is reported nothing is dispatched. -/
def NothingAfterReport (service : SiteService) (c : SiteConnection) (call : ClientCall) : Prop :=
  c.server.reported = true → (c.step service call).server.dispatched = c.server.dispatched

theorem cutReply_take (writeFails : Option Nat) (s : SiteServer) (response : SessionResponse) :
    ∃ n, (cutReply writeFails (s, responseBytes response)).2 = (responseBytes response).take n := by
  unfold cutReply
  cases writeFails with
  | none => exact ⟨_, (List.take_length).symm⟩
  | some k =>
    dsimp only
    split
    · exact ⟨_, (List.take_length).symm⟩
    · exact ⟨k, rfl⟩

theorem takeUntil_take (fails : Option Nat) (bytes : Bytes) : ∃ n, takeUntil fails bytes = bytes.take n := by
  cases fails with
  | none => exact ⟨_, (List.take_length).symm⟩
  | some k => exact ⟨k, rfl⟩

theorem cutReply_dispatched (writeFails : Option Nat) (served : SiteServer × Bytes) :
    (cutReply writeFails served).1.dispatched = served.1.dispatched := by
  unfold cutReply
  cases writeFails with
  | none => rfl
  | some k =>
    dsimp only
    split <;> rfl

theorem Clear.answersOwn (h : Clear service c call) : AnswersOwn service c call := by
  obtain ⟨hunread, hserver⟩ := h
  intro r hr
  cases hwrite : call.writeFails with
  | some k => simp [request, hwrite] at hr
  | none =>
    cases hclosed : c.server.closed with
    | true =>
      have hserve : serve service call c.server = (c.server, []) := by
        cases hread : call.serverReadFails <;> simp [serve, hread, serveBytes_closed hclosed, failRead, hclosed]
      have hempty : takeUntil call.readFails [] = [] := by cases call.readFails <;> simp [takeUntil]
      simp only [request, hserve, hwrite, hunread, List.append_nil, hempty, readBoundedLine, hclosed] at hr
      split at hr <;> cases hr
    | false =>
      obtain ⟨hbuf, hread, received, haccepted⟩ := hserver hclosed
      have hserve : serve service call c.server = cutReply call.serverWriteFails (c.server.answered service received) := by
        simp [serve, hread, takeUntil, hwrite, serveBytes_frame hclosed hbuf haccepted]
      refine ⟨received, haccepted.2, ?_, ?_⟩
      · simp only [step, request, hserve, hwrite, cutReply_dispatched, answered]
      · obtain ⟨n, hcut⟩ := cutReply_take call.serverWriteFails (c.server.answered service received).1
          (service.dispatch c.server.dispatched.length received)
        obtain ⟨m, htake⟩ := takeUntil_take call.readFails
          ((responseBytes (service.dispatch c.server.dispatched.length received)).take n)
        simp only [request, hserve, hwrite, hunread, List.nil_append] at hr
        rw [answered] at hr hcut
        rw [hcut, htake, List.take_take] at hr
        exact decode_own hr

end SiteConnection

end CorpusFeed
