import CorpusFeed.SitePairing

/-! Runs of calls on one connection. -/

namespace CorpusFeed

namespace SiteServer

variable {service : SiteService} {writeFails : Option Nat} {s : SiteServer}

/-- A reported framing failure has ended the connection. -/
def ReportCloses (s : SiteServer) : Prop := s.reported = true → s.closed = true

theorem ReportCloses.cutReply {served : SiteServer × Bytes} (h : served.1.ReportCloses) :
    (cutReply writeFails served).1.ReportCloses := by
  unfold SiteServer.cutReply
  cases writeFails with
  | none => exact h
  | some k =>
    by_cases hempty : served.2 = []
    · simpa [hempty] using h
    · simp [hempty, ReportCloses]

theorem reportCloses_report (s : SiteServer) (message : Text) : (s.report message).1.ReportCloses := fun _ => rfl

theorem ReportCloses.serveLine (h : s.ReportCloses) (line : Text) : (s.serveLine service line).1.ReportCloses := by
  unfold SiteServer.serveLine
  by_cases hempty : trim line = []
  · simpa [hempty, ReportCloses] using h
  · simp only [hempty, if_false]
    cases decodeSiteEnvelopeLine service.serde (trim line) with
    | ok request => exact h
    | error error => exact reportCloses_report s _

theorem ReportCloses.serveByte (h : s.ReportCloses) (b : UInt8) : (s.serveByte service writeFails b).1.ReportCloses := by
  unfold SiteServer.serveByte
  by_cases hclosed : s.closed = true
  · simpa [hclosed] using h
  · simp only [hclosed, Bool.false_eq_true, if_false]
    cases pushByte maxSiteLineBytes s.buf b with
    | more buf => exact fun hreported => absurd (h hreported) hclosed
    | line text => exact (h.serveLine text).cutReply
    | oversize => exact (reportCloses_report s _).cutReply

theorem ReportCloses.serveBytes (h : s.ReportCloses) (bytes : Bytes) :
    (s.serveBytes service writeFails bytes).1.ReportCloses := by
  induction bytes generalizing s with
  | nil => exact h
  | cons b rest ih => exact ih (h.serveByte b)

theorem ReportCloses.failRead (h : s.ReportCloses) (detail : Text) : (s.failRead writeFails detail).1.ReportCloses := by
  unfold SiteServer.failRead
  by_cases hclosed : s.closed = true
  · simpa [hclosed] using h
  · simp only [hclosed, Bool.false_eq_true, if_false]
    exact (reportCloses_report s _).cutReply

end SiteServer

namespace SiteConnection

open SiteServer

variable {service : SiteService} {c : SiteConnection} {call : ClientCall}

theorem step_server (service : SiteService) (c : SiteConnection) (call : ClientCall) :
    (c.step service call).server = (serve service call c.server).1 := by
  unfold step request
  cases call.writeFails <;> rfl

theorem reportCloses_step (h : c.server.ReportCloses) : (c.step service call).server.ReportCloses := by
  rw [step_server]
  unfold serve
  cases call.serverReadFails with
  | none => exact h.serveBytes _
  | some failure => exact (h.serveBytes _).failRead _

theorem nothingAfterReport_of_reportCloses (h : c.server.ReportCloses) : NothingAfterReport service c call := by
  intro hreported
  have hclosed := h hreported
  rw [step_server]
  unfold serve
  cases call.serverReadFails with
  | none => simp [serveBytes_closed hclosed]
  | some failure => simp [serveBytes_closed hclosed, failRead, hclosed]

/-- In every run nothing is dispatched after a framing failure was reported, and
in a run whose calls are clear each response belongs to its own request. -/
theorem site_responses_paired (service : SiteService) (calls : List ClientCall) :
    RunMeets (step service) (NothingAfterReport service) opened calls ∧
      (RunMeets (step service) (Clear service) opened calls → RunMeets (step service) (AnswersOwn service) opened calls) := by
  have hstart : opened.server.ReportCloses := fun hreported => by cases hreported
  refine ⟨?_, fun hrun => ?_⟩
  · exact RunMeets.of_invariant (fun _ _ => reportCloses_step) (fun _ _ => nothingAfterReport_of_reportCloses) hstart
  · exact RunMeets.mono (fun (c : SiteConnection) _ (h : c.server.ReportCloses) _ => reportCloses_step h) (fun _ _ _ hclear => hclear.answersOwn) hstart hrun

/-- A call during which no input or output fails. -/
def undisturbed (request : SessionRequest) : ClientCall := ⟨request, none, none, none, none⟩

/-- The listener waits for the next line. -/
def Waiting (c : SiteConnection) : Prop := c.server.closed = false ∧ c.server.buf = []

variable {request received : SessionRequest}

/-- The client reads the first line that is left, whichever call it belongs to. -/
theorem request_undisturbed (hwaiting : Waiting c) (haccepted : Accepted service request received) :
    c.request service (undisturbed request) =
      (⟨(c.server.answered service received).1,
        (readBoundedLine maxLineBytes false [] (c.unread ++ (c.server.answered service received).2)).2⟩,
      decodeRead service.serde
        (readBoundedLine maxLineBytes false [] (c.unread ++ (c.server.answered service received).2)).1) := by
  have hserve : serve service (undisturbed request) c.server = c.server.answered service received := by
    simp [serve, undisturbed, takeUntil, serveBytes_frame hwaiting.1 hwaiting.2 haccepted, cutReply]
  have hopen : (c.server.answered service received).1.closed = false := hwaiting.1
  rw [SiteConnection.request, hserve]
  simp [undisturbed, hopen, takeUntil, leaveAfter]

theorem waiting_undisturbed (hwaiting : Waiting c) (haccepted : Accepted service request received) :
    Waiting (c.step service (undisturbed request)) := by
  rw [step, request_undisturbed hwaiting haccepted]
  exact ⟨hwaiting.1, rfl⟩

theorem dispatched_undisturbed (hwaiting : Waiting c) (haccepted : Accepted service request received) :
    (c.step service (undisturbed request)).server.dispatched.length = c.server.dispatched.length + 1 := by
  rw [step, request_undisturbed hwaiting haccepted]
  simp [answered]

/-- A response that fits is read whole, so the next call is clear again. -/
theorem unread_undisturbed (hwaiting : Waiting c) (haccepted : Accepted service request received) (hunread : c.unread = [])
    (hfits : (asBytes (replyText (service.dispatch c.server.dispatched.length received))).length ≤ maxLineBytes) :
    (c.step service (undisturbed request)).unread = [] := by
  rw [step, request_undisturbed hwaiting haccepted, hunread]
  simp only [answered, responseBytes_eq, List.nil_append]
  rw [readBoundedLine_line (reply_not_mem _) (by simpa using hfits)]

/-- After a response that is too long for the client, the second call reads its
rest and the third one reads the response of the second. -/
theorem third_reads_second {first second third first' second' third' : SessionRequest}
    (hfirst : Accepted service first first') (hsecond : Accepted service second second')
    (hthird : Accepted service third third')
    (hlong : maxLineBytes < (asBytes (replyText (service.dispatch 0 first'))).length)
    (hrest : (asBytes (replyText (service.dispatch 0 first'))).length ≤ 2 * maxLineBytes)
    (hfits : (asBytes (replyText (service.dispatch 1 second'))).length ≤ maxLineBytes) :
    (((opened.step service (undisturbed first)).step service (undisturbed second)).request service (undisturbed third)).2 =
      decodeSiteResponseEnvelopeLine service.serde (replyText (service.dispatch 1 second')) := by
  have hopened : Waiting opened := ⟨rfl, rfl⟩
  have hafter := waiting_undisturbed hopened hfirst
  have hunread : (opened.step service (undisturbed first)).unread =
      (asBytes (replyText (service.dispatch 0 first'))).drop (maxLineBytes + 1) ++ [lineFeed] := by
    rw [step, request_undisturbed hopened hfirst]
    simp only [answered, responseBytes_eq, show opened.unread = [] from rfl,
      show opened.server.dispatched.length = 0 from rfl, List.nil_append]
    rw [readBoundedLine_oversize (reply_not_mem _) (Nat.zero_le _) (by simpa using hlong)]
    rfl
  have hdispatched : (opened.step service (undisturbed first)).server.dispatched.length = 1 :=
    dispatched_undisturbed hopened hfirst
  have hunread' : ((opened.step service (undisturbed first)).step service (undisturbed second)).unread =
      asBytes (replyText (service.dispatch 1 second')) ++ [lineFeed] := by
    rw [step, request_undisturbed hafter hsecond, hunread]
    simp only [answered, responseBytes_eq, hdispatched, List.append_assoc, List.singleton_append]
    rw [readBoundedLine_line]
    · exact fun hmem => reply_not_mem _ (List.mem_of_mem_drop hmem)
    · simp only [List.nil_append, List.length_drop]
      omega
  rw [request_undisturbed (waiting_undisturbed hafter hsecond) hthird, hunread', List.append_assoc, List.singleton_append,
    readBoundedLine_line (reply_not_mem _) (by simpa using hfits)]
  simp only [decodeRead, List.nil_append, fromUtf8Lossy_asBytes]
  rw [trim_replyText]

/-- Where the JSON library reads a frame back, the listener receives the request
that was sent, a null id being no id. -/
theorem decode_frame {serde : SerdeJson} (r : SessionRequest) (hparse : serde.parse (frameText r) = .ok (siteEnvelope r)) :
    decodeSiteEnvelopeLine serde (frameText r) = .ok { r with id := r.id.bind presentId } := by
  rw [decodeSiteEnvelopeLine, decodeEnvelopeLine, hparse]
  obtain ⟨id, command, args⟩ := r
  cases id with
  | none => rfl
  | some id => rfl

theorem decode_reply {serde : SerdeJson} {id : Option Json} {flag : Bool} {result : Json}
    (hparse : serde.parse (replyText (.ok id flag result)) = .ok (siteResponseEnvelope (.ok id flag result))) :
    decodeSiteResponseEnvelopeLine serde (replyText (.ok id flag result)) = .ok (.ok (id.bind presentId) flag result) := by
  rw [decodeSiteResponseEnvelopeLine, decodeEnvelopeLine, hparse]
  cases id with
  | none => rfl
  | some id => rfl

/-- A JSON library that reads what these values are printed as. -/
def readsBack (values : List Json) : SerdeJson where
  parse t :=
    match values.find? fun v => v.print = t with
    | some v => .ok v
    | none => .error []
  shapeError _ := []
  parse_closed := by
    intro t v h
    split at h
    · next v' hfind =>
      obtain rfl := Except.ok.inj h
      have hprint := List.find?_some hfind
      rw [← of_decide_eq_true hprint]
      exact Json.closed_print v'
    · cases h

theorem parse_readsBack {values : List Json} {v : Json} (h : v ∈ values) : (readsBack values).parse v.print = .ok v := by
  cases hfind : values.find? (fun v' => v'.print = v.print) with
  | none => simpa using List.find?_eq_none.mp hfind v h
  | some v' =>
    have hprint := List.find?_some hfind
    rw [Json.print_injective (of_decide_eq_true hprint)] at hfind
    simp [readsBack, hfind]

def statusRequest (n : Nat) : SessionRequest := ⟨some (.number (numberOfInt n)), "status".toList, .object []⟩

def statusReply (n : Nat) (result : Json) : SessionResponse := .ok (some (.number (numberOfInt n))) true result

/-- A service whose first result is `long`. -/
def statusService (long : Text) : SiteService where
  serde := readsBack [siteEnvelope (statusRequest 1), siteEnvelope (statusRequest 2), siteEnvelope (statusRequest 3),
    siteResponseEnvelope (statusReply 1 (.string long)), siteResponseEnvelope (statusReply 2 .null),
    siteResponseEnvelope (statusReply 3 .null)]
  registered _ := true
  handle n _ _ := .ok (if n = 0 then .string long else .null)

theorem statusService_dispatch (long : Text) (n k : Nat) :
    (statusService long).dispatch n (statusRequest k) = statusReply k (if n = 0 then .string long else .null) := rfl

theorem statusService_accepts (long : Text) {k : Nat} (hk : k = 1 ∨ k = 2 ∨ k = 3) :
    Accepted (statusService long) (statusRequest k) (statusRequest k) := by
  have hmem : siteEnvelope (statusRequest k) ∈ [siteEnvelope (statusRequest 1), siteEnvelope (statusRequest 2),
      siteEnvelope (statusRequest 3), siteResponseEnvelope (statusReply 1 (.string long)),
      siteResponseEnvelope (statusReply 2 .null), siteResponseEnvelope (statusReply 3 .null)] := by
    rcases hk with rfl | rfl | rfl <;> simp
  refine ⟨?_, decode_frame (statusRequest k) (parse_readsBack hmem)⟩
  rcases hk with rfl | rfl | rfl <;> decide

theorem replyText_long (long : Text) : replyText (statusReply 1 (.string long)) =
    "\x7b\"proto\":1,\"response\":\x7b\"id\":1,\"ok\":true,\"result\":\"".toList ++
      (((long.flatMap escapeChar ++ ['"']) ++ ['}']) ++ ['}']) := rfl

theorem asBytes_letters (n : Nat) : (asBytes ((List.replicate n 'a').flatMap escapeChar)).length = n := by
  induction n with
  | zero => rfl
  | succ n ih =>
    rw [List.replicate_succ, List.flatMap_cons, asBytes_append, List.length_append, ih]
    exact Nat.add_comm 1 n

def longText : Text := List.replicate maxLineBytes 'a'

theorem longReply_length : (asBytes (replyText (statusReply 1 (.string longText)))).length = maxLineBytes + 53 := by
  rw [replyText_long, longText]
  simp only [asBytes_append, List.length_append, asBytes_letters]
  have hbefore : (asBytes "\x7b\"proto\":1,\"response\":\x7b\"id\":1,\"ok\":true,\"result\":\"".toList).length = 50 := by decide
  have hafter : (asBytes ['"']).length = 1 ∧ (asBytes ['}']).length = 1 := by decide
  omega

/-- The first response does not fit, and the third call returns the second one. -/
theorem third_call_misread : ¬ RunMeets (step (statusService longText)) (AnswersOwn (statusService longText)) opened
    [undisturbed (statusRequest 1), undisturbed (statusRequest 2), undisturbed (statusRequest 3)] := by
  rintro ⟨_, _, hthird, _⟩
  have hfirst := statusService_accepts longText (Or.inl rfl)
  have hsecond := statusService_accepts longText (Or.inr (Or.inl rfl))
  have haccepted := statusService_accepts longText (Or.inr (Or.inr rfl))
  have hlength := longReply_length
  have hread := third_reads_second hfirst hsecond haccepted
    (by rw [statusService_dispatch]; simp only [if_true, hlength]; omega)
    (by rw [statusService_dispatch]; simp only [if_true, hlength]; decide)
    (by rw [statusService_dispatch]; decide)
  have hreply := @decode_reply (statusService longText).serde (some (.number (numberOfInt 2))) true .null
    (parse_readsBack (by simp [statusReply]))
  obtain ⟨received, hreceived, _, hdecoded⟩ := hthird _ (hread.trans hreply)
  obtain rfl := Except.ok.inj (hreceived.symm.trans haccepted.2)
  have hopened : Waiting opened := ⟨rfl, rfl⟩
  have hdispatched := dispatched_undisturbed (waiting_undisturbed hopened hfirst) hsecond
  rw [dispatched_undisturbed hopened hfirst] at hdispatched
  have hown := @decode_reply (statusService longText).serde (some (.number (numberOfInt 3))) true .null
    (parse_readsBack (by simp [statusReply]))
  rw [hdispatched, statusService_dispatch] at hdecoded
  have hsame := Except.ok.inj (hdecoded.symm.trans hown)
  simp only [SessionResponse.ok.injEq, presentId, Option.bind_some, Option.some.injEq, Json.number.injEq] at hsame
  exact absurd hsame.1 (by decide)

/-- Where every response fits, each call gets its own. -/
theorem two_calls_paired : RunMeets (step (statusService ['a'])) (NothingAfterReport (statusService ['a'])) opened
      [undisturbed (statusRequest 1), undisturbed (statusRequest 2)] ∧
    RunMeets (step (statusService ['a'])) (AnswersOwn (statusService ['a'])) opened
      [undisturbed (statusRequest 1), undisturbed (statusRequest 2)] := by
  have h := site_responses_paired (statusService ['a']) [undisturbed (statusRequest 1), undisturbed (statusRequest 2)]
  have hfirst := statusService_accepts ['a'] (Or.inl rfl)
  have hsecond := statusService_accepts ['a'] (Or.inr (Or.inl rfl))
  have hopened : Waiting opened := ⟨rfl, rfl⟩
  have hdispatched : opened.server.dispatched.length = 0 := rfl
  have hunread := unread_undisturbed hopened hfirst rfl (by rw [hdispatched, statusService_dispatch]; decide)
  have hafter := waiting_undisturbed hopened hfirst
  exact ⟨h.1, h.2 ⟨⟨rfl, fun _ => ⟨rfl, rfl, _, hfirst⟩⟩, ⟨hunread, fun _ => ⟨hafter.2, rfl, _, hsecond⟩⟩, trivial⟩⟩

end SiteConnection

end CorpusFeed
