import SharedSync.Proofs.Serving.Attribution
import SharedSync.Proofs.Wire.Room

/-!
# Authority — what a client writes

A client makes its calls over a stream that takes all it is given, in pieces of any size.  What it
reads is anyone's guess: replies to its calls or to none, pieces of frames, failures.

* `Request.frames`: the frames of the requests, each with its number; a request that cannot be
  encoded has none, and takes no number.  `Request.sent`: those that are short enough to be sent.
* `Called`: the three ways in which a call can go.
* `wrote_replies`: after any calls, the client has written the frames that were sent.
* `writes_frames`: so the other side reads one frame a call, numbered in the order of the calls.
-/

namespace SharedSync

open SharedSync.Stream (encodeAll)

/-! ### Frames of requests -/

/-- The frame is short enough to be sent. -/
def Frame.isSendable (f : Frame) : Bool := f.payload.length ≤ maxPayload

theorem Frame.encode_of_sendable {f : Frame} (h : f.isSendable = true) :
    ∃ bytes, f.encode = .ok bytes := exists_encode (of_decide_eq_true h)

theorem Frame.lt_of_not_sendable {f : Frame} (h : f.isSendable = false) :
    maxPayload < f.payload.length := Nat.not_le.mp (of_decide_eq_false h)

theorem Frame.isSendable_of_encode {f : Frame} {bytes : Bytes} (h : f.encode = .ok bytes) :
    f.isSendable = true := by
  refine decide_eq_true (Nat.not_lt.mp fun long => ?_)
  rw [encode, if_pos long] at h
  cases h

namespace Request

/-- The frame of a request, if it can be encoded; the frame may be too long to be sent. -/
def frame? (number : UInt64) : Request → Option Frame
  | .create request => request.encode.toOption.map (⟨.createObject, number, ·⟩)
  | .query handle => some ⟨.queryObject, number, Query.encode handle⟩

/-- The frames of a series of requests, numbered from `number` on. -/
def framesFrom (number : UInt64) : List Request → List Frame
  | [] => []
  | request :: rest =>
      match request.frame? number with
      | none => framesFrom number rest
      | some f => f :: framesFrom (number + 1) rest

/-- The frames of the requests of a new client. -/
def frames (requests : List Request) : List Frame := framesFrom 1 requests

/-- Of these, the frames that are sent. -/
def sent (requests : List Request) : List Frame := (frames requests).filter Frame.isSendable

variable {request : Request} {number : UInt64} {f : Frame}

theorem frame?_of_encode {r : CreateRequest} {payload : Bytes} (h : r.encode = .ok payload)
    (number : UInt64) : frame? number (.create r) = some ⟨.createObject, number, payload⟩ := by
  rw [frame?, h]
  rfl

theorem frame?_of_refused {r : CreateRequest} {fault : AttributesFault}
    (h : r.encode = .error fault) (number : UInt64) : frame? number (.create r) = none := by
  rw [frame?, h]
  rfl

/-- The frame of a request carries it, under the number it was given. -/
theorem carries_of_frame? (h : request.frame? number = some f) :
    f.Carries request ∧ f.request = number := by
  cases request with
  | query handle =>
      cases h
      exact ⟨.query, rfl⟩
  | create request =>
      simp only [frame?] at h
      cases hp : request.encode with
      | error fault => rw [hp] at h; cases h
      | ok payload =>
          rw [hp] at h
          cases h
          exact ⟨.create hp, rfl⟩

/-- Only a create request that cannot be encoded has no frame. -/
theorem refused_of_frame? (h : request.frame? number = none) :
    ∃ (r : CreateRequest) (fault : AttributesFault),
      request = .create r ∧ r.encode = .error fault := by
  cases request with
  | query handle => cases h
  | create request =>
      simp only [frame?] at h
      cases hp : request.encode with
      | error fault => exact ⟨request, fault, rfl, hp⟩
      | ok payload => rw [hp] at h; cases h

/-- What is in the frame of a request is what arrives of it, if the frame is sent. -/
theorem exists_arrived_of_carries (h : f.Carries request) : ∃ arrived,
    f.request? = some arrived ∧
      request.arriving? = if f.isSendable then some arrived else none := by
  cases h with
  | @query handle n =>
      have hs : Frame.isSendable ⟨.queryObject, n, Query.encode handle⟩ = true := by
        rw [Frame.isSendable, Query.encode, Words.length_le32]
        decide
      refine ⟨.query handle, ?_, by rw [if_pos hs]; rfl⟩
      simp only [Frame.request?, Query.decode?_encode, Option.map_some]
  | @create request payload n hp =>
      refine ⟨.create request.normal, ?_, ?_⟩
      · simp only [Frame.request?, CreateRequest.decode?_encode hp, Option.map_some]
      · simp only [arriving?, hp, Frame.isSendable, decide_eq_true_eq]

theorem framesFrom_of_none (h : request.frame? number = none) (rest : List Request) :
    framesFrom number (request :: rest) = framesFrom number rest := by rw [framesFrom, h]

theorem framesFrom_of_some (h : request.frame? number = some f) (rest : List Request) :
    framesFrom number (request :: rest) = f :: framesFrom (number + 1) rest := by rw [framesFrom, h]

/-- Each frame takes a number. -/
theorem framesFrom_cons (number : UInt64) (request : Request) (rest : List Request) :
    framesFrom number (request :: rest) = (request.frame? number).toList ++
      framesFrom (number + UInt64.ofNat (request.frame? number).toList.length) rest := by
  cases hf : request.frame? number with
  | none =>
      rw [framesFrom_of_none hf]
      show _ = framesFrom (number + 0) rest
      rw [UInt64.add_zero]
  | some f => exact framesFrom_of_some hf rest

/-- No request has more than one frame. -/
theorem length_framesFrom_le (number : UInt64) (requests : List Request) :
    (framesFrom number requests).length ≤ requests.length := by
  induction requests generalizing number with
  | nil => exact Nat.le_refl 0
  | cons request rest ih =>
      have hone : (request.frame? number).toList.length ≤ 1 := by
        cases request.frame? number <;> simp
      have hrest := ih (number + UInt64.ofNat (request.frame? number).toList.length)
      rw [framesFrom_cons, List.length_append, List.length_cons]
      omega

/-- The frames are numbered in their order. -/
theorem numbers_framesFrom (number : UInt64) (requests : List Request) :
    (framesFrom number requests).map Frame.request =
      (List.range (framesFrom number requests).length).map fun k => number + UInt64.ofNat k := by
  induction requests generalizing number with
  | nil => rfl
  | cons request rest ih =>
      cases hf : request.frame? number with
      | none =>
          rw [framesFrom_of_none hf]
          exact ih number
      | some f =>
          obtain ⟨-, rfl⟩ := carries_of_frame? hf
          simp only [framesFrom_of_some hf, List.map_cons, List.length_cons,
            List.range_succ_eq_map, List.map_map, ih]
          refine List.cons_eq_cons.mpr ⟨(UInt64.add_zero _).symm, ?_⟩
          refine List.map_congr_left fun k _ => ?_
          rw [Function.comp_apply, Nat.succ_eq_add_one, UInt64.ofNat_add, UInt64.add_assoc,
            UInt64.add_comm 1]
          rfl

/-- What the frames that are sent bring to the other side. -/
theorem requests_framesFrom (number : UInt64) (requests : List Request) :
    ((framesFrom number requests).filter Frame.isSendable).map Frame.request? =
      (requests.filterMap arriving?).map some := by
  induction requests generalizing number with
  | nil => rfl
  | cons request rest ih =>
      cases hf : request.frame? number with
      | none =>
          obtain ⟨r, fault, rfl, hr⟩ := refused_of_frame? hf
          have harriving : arriving? (.create r) = none := by simp only [arriving?, hr]
          rw [framesFrom_of_none hf, List.filterMap_cons_none harriving]
          exact ih number
      | some f =>
          obtain ⟨carries, -⟩ := carries_of_frame? hf
          obtain ⟨arrived, harrived, harriving⟩ := exists_arrived_of_carries carries
          cases hs : f.isSendable with
          | false =>
              rw [hs, if_neg Bool.false_ne_true] at harriving
              rw [framesFrom_of_some hf, List.filter_cons_of_neg (by rw [hs]; decide),
                List.filterMap_cons_none harriving]
              exact ih _
          | true =>
              rw [hs, if_pos rfl] at harriving
              rw [framesFrom_of_some hf, List.filter_cons_of_pos hs,
                List.filterMap_cons_some harriving, List.map_cons, List.map_cons, harrived, ih]

end Request

/-! ### Calls -/

namespace Client

variable {request : Request} {c c' c'' : Client Stream}
  {outcome : Outcome (Client Stream) (Except SyncError Reply)}

/-- How a call goes: its request cannot be encoded, or fits no frame, or is written.  A reply that it
gets is in the frame that it read, and that frame has its number. -/
inductive Called (request : Request) (c : Client Stream) :
    Outcome (Client Stream) (Except SyncError Reply) → Prop where
  | refused {r fault} (creates : request = .create r) (refused : r.encode = .error fault) :
      Called request c ⟨.error (.invalidAttributes fault), c, []⟩
  | oversized {f} (frame : request.frame? c.next = some f) (long : f.isSendable = false) :
      Called request c ⟨.error (.ofFrameError (.payloadTooLarge f.payload.length)),
        { c with next := c.next + 1 }, []⟩
  | written {f bytes outcome} (frame : request.frame? c.next = some f)
      (encode : f.encode = .ok bytes) (output : outcome.state.output = c.output ++ bytes)
      (next : outcome.state.next = c.next + 1) (takes : outcome.state.connection.sink.Takes)
      (accepted : ∀ reply, outcome.result = .ok reply → ∃ payload,
        (Stream.readFrame c.connection.incoming).1 = .ok (some ⟨.reply, c.next, payload⟩) ∧
          payload.length = Reply.bytes ∧ Reply.decode? payload = some reply) :
      Called request c outcome

/-- **A call goes in one of these ways.** -/
theorem called_answer (takes : c.connection.sink.Takes) (request : Request) :
    Called request c ((authority Stream.transport).answer request c) := by
  cases hf : request.frame? c.next with
  | none =>
      obtain ⟨r, fault, rfl, hr⟩ := Request.refused_of_frame? hf
      rw [answer_of_refused _ hr]
      exact .refused rfl hr
  | some f =>
      obtain ⟨carries, hn⟩ := Request.carries_of_frame? hf
      cases hs : f.isSendable with
      | false =>
          rw [answer_of_oversized _ carries hn (Frame.lt_of_not_sendable hs)]
          exact .oversized hf hs
      | true =>
          obtain ⟨bytes, hbytes⟩ := Frame.encode_of_sendable hs
          have houtput := Sink.output_taking c.connection.sink bytes
          rw [carries.call_eq, call]
          simp only [← hn, hbytes, Stream.transport, Sink.send_of_takes takes]
          -- the bytes are out; the flush and the wait change only the result
          cases c.connection.sink.flush with
          | error error =>
              refine .written hf hbytes houtput (by rw [hn]) takes ?_
              rintro reply ⟨⟩
          | ok done =>
              obtain ⟨hstate, haccepted⟩ := await_receive Stream.transport f.kind f.request
                ⟨⟨c.connection.incoming, c.connection.sink.taking bytes⟩, f.request + 1⟩
              rw [hn] at hstate haccepted ⊢
              refine .written hf hbytes ?_ ?_ ?_ fun reply h => ?_
              · exact (congrArg output hstate).trans houtput
              · exact congrArg next hstate
              · exact (congrArg (fun c => c.connection.sink) hstate).symm ▸ takes
              · obtain ⟨payload, hread, hd⟩ := haccepted reply h
                exact ⟨payload, hread, Reply.length_of_decode? hd, hd⟩

/-- From one state to the other, a client has used numbers for the frames, and written those that
are short enough. -/
structure Wrote (frames : List Frame) (c c' : Client Stream) : Prop where
  takes : c'.connection.sink.Takes
  next : c'.next = c.next + UInt64.ofNat frames.length
  output : ∃ written, encodeAll (frames.filter Frame.isSendable) = .ok written ∧
    c'.output = c.output ++ written

theorem wrote_nil (takes : c.connection.sink.Takes) : Wrote [] c c where
  takes := takes
  next := (UInt64.add_zero _).symm
  output := ⟨[], rfl, (List.append_nil _).symm⟩

/-- What is written in two parts is written in order. -/
theorem Wrote.trans {frames others : List Frame} (h : Wrote frames c c')
    (h' : Wrote others c' c'') : Wrote (frames ++ others) c c'' := by
  obtain ⟨written, hwritten, houtput⟩ := h.output
  obtain ⟨more, hmore, houtput'⟩ := h'.output
  refine ⟨h'.takes, ?_, written ++ more, ?_, ?_⟩
  · rw [h'.next, h.next, List.length_append, UInt64.ofNat_add, UInt64.add_assoc]
  · rw [List.filter_append]
    exact Stream.encodeAll_append hwritten hmore
  · rw [houtput', houtput, List.append_assoc]

/-- What one call writes. -/
theorem Called.wrote (h : Called request c outcome) (takes : c.connection.sink.Takes) :
    Wrote (request.frame? c.next).toList c outcome.state := by
  cases h with
  | @refused r fault creates refused =>
      rw [creates, Request.frame?_of_refused refused]
      exact wrote_nil takes
  | oversized frame long =>
      rw [frame]
      refine ⟨takes, rfl, [], ?_, (List.append_nil _).symm⟩
      rw [Option.toList_some, List.filter_cons_of_neg (by rw [long]; decide)]
      rfl
  | @written f bytes _ frame encode output next takes =>
      rw [frame]
      refine ⟨takes, next, bytes, ?_, output⟩
      rw [Option.toList_some, List.filter_cons_of_pos (Frame.isSendable_of_encode encode)]
      exact Stream.encodeAll_singleton encode

/-- **What a series of calls writes**, however they end. -/
theorem wrote_replies (requests : List Request) (takes : c.connection.sink.Takes) :
    Wrote (Request.framesFrom c.next requests) c
      ((authority Stream.transport).replies requests c).2 := by
  induction requests generalizing c with
  | nil => exact wrote_nil takes
  | cons request rest ih =>
      have hfirst := (called_answer takes request).wrote takes
      have hrest := ih hfirst.takes
      rw [hfirst.next] at hrest
      rw [Request.framesFrom_cons]
      exact hfirst.trans hrest

/-- **A client writes whole frames, one for each request that fits one**, in the order of the calls
and numbered from 1 on, whatever it reads and whichever calls fail.  What the frames bring to the
other side are the requests.  One that is refused takes no number, and one that is too long takes
one; no number is taken twice within `2 ^ 64` calls; and a call gets no reply but the one in the
frame that it read, if that has the call's number. -/
theorem writes_frames {near : Stream} (takes : near.sink.Takes) (requests : List Request) :
    let c := ((authority Stream.transport).replies requests (ofStream near)).2
    (∃ written, encodeAll (Request.sent requests) = .ok written ∧
      c.output = near.sink.output ++ written) ∧
    (∀ f ∈ Request.sent requests, ∃ bytes, f.encode = .ok bytes ∧ Frame.decode bytes = .ok f) ∧
    (Request.sent requests).map Frame.request? = (requests.filterMap Request.arriving?).map some ∧
    c.next = UInt64.ofNat ((Request.frames requests).length + 1) ∧
    (Request.frames requests).map Frame.request =
      (List.range (Request.frames requests).length).map (fun k => UInt64.ofNat (k + 1)) ∧
    (requests.length < 2 ^ 64 → ((Request.frames requests).map Frame.request).Nodup) ∧
    ∀ request, Called request c ((authority Stream.transport).answer request c) := by
  intro c
  have wrote : Wrote (Request.frames requests) (ofStream near) c :=
    wrote_replies (c := ofStream near) requests takes
  have hone : ∀ k, (1 : UInt64) + UInt64.ofNat k = UInt64.ofNat (k + 1) := fun k => by
    rw [UInt64.ofNat_add, UInt64.add_comm]
    rfl
  have numbers := Request.numbers_framesFrom 1 requests
  simp only [hone] at numbers
  refine ⟨wrote.output, fun f hf => ?_, Request.requests_framesFrom 1 requests,
    wrote.next.trans (hone _), numbers, fun few => ?_, called_answer wrote.takes⟩
  · obtain ⟨bytes, hbytes⟩ := Frame.encode_of_sendable (List.of_mem_filter hf)
    exact ⟨bytes, hbytes, Frame.decode_encode hbytes⟩
  · have few' := Nat.lt_of_le_of_lt (Request.length_framesFrom_le 1 requests) few
    rw [Request.frames, numbers]
    refine List.nodup_range.map_on fun i hi j hj heq => ?_
    -- numbers that differ by less than `2 ^ 64` differ as words
    have hmod := congrArg UInt64.toNat heq
    have hi := List.mem_range.mp hi
    have hj := List.mem_range.mp hj
    simp only [UInt64.toNat_ofNat'] at hmod
    omega

namespace Small

/-- A name that is too long, a query, a descriptor that is too long, and a request for a handle. -/
def requests : List Request :=
  [.create CreateRequest.Small.overlong, .query .first, .create CreateRequest.Small.bulky,
    .create { low := 2, high := 5 }]

/-- What is read is no frame, and the first read behind it fails. -/
def near : Stream :=
  { incoming := [.chunk [0, 0, 0, 1, 0, 0], .failure .wouldBlock]
    sink := { respond := fun _ => .atMost 3 } }

/-- A query of the first handle. -/
def query : Frame := ⟨.queryObject, 1, [4, 0, 0, 0]⟩

/-- The frame of a creation without attributes. -/
def creation : Frame :=
  ⟨.createObject, 3, [1, 0, 0, 0, 0, 0, 0, 0, 2, 0, 0, 0, 5, 0, 0, 0, 0, 0, 0, 0]⟩

/-- The query and the creation, which have numbers 1 and 3. -/
def written : Bytes :=
  [0, 0, 0, 16, 0, 1, 0, 2, 0, 0, 0, 0, 0, 0, 0, 1, 4, 0, 0, 0,
    0, 0, 0, 32, 0, 1, 0, 1, 0, 0, 0, 0, 0, 0, 0, 3, 1, 0, 0, 0, 0, 0, 0, 0, 2, 0, 0, 0, 5, 0, 0, 0,
    0, 0, 0, 0]

theorem frame?_overlong (number : UInt64) :
    Request.frame? number (.create CreateRequest.Small.overlong) = none := by
  have hunits := CreateRequest.Small.length_units 32768
  have long : Limits.maxNameUnits < (ObjectAttributes.nameUnits
      { name := some (String.ofList (List.replicate 32768 'x')) }).length := by
    rw [hunits]
    decide
  exact Request.frame?_of_refused
    (CreateRequest.encode_eq_error_iff.mpr ⟨_, rfl, .name long⟩) number

theorem exists_frame?_bulky (number : UInt64) : ∃ f,
    Request.frame? number (.create CreateRequest.Small.bulky) = some f ∧
      f.payload.length = 1048612 := by
  have hencode := CreateRequest.Small.encode_bulky
  refine ⟨_, Request.frame?_of_encode hencode number, ?_⟩
  rw [CreateRequest.length_of_encode hencode, CreateRequest.Small.payloadLength_bulky]

end Small

/-- Of four calls that all fail, two have written their frames. -/
theorem writes_frames_small : Small.near.sink.Takes ∧
    ((authority Stream.transport).replies Small.requests (ofStream Small.near)).2.output =
      Small.written ∧
    ((authority Stream.transport).replies Small.requests (ofStream Small.near)).2.next = 4 := by
  have takes : Small.near.sink.Takes := fun _ => .inr ⟨2, rfl⟩
  obtain ⟨⟨written, hwritten, houtput⟩, -, -, hnext, -⟩ := writes_frames takes Small.requests
  obtain ⟨f, hf, hlength⟩ := Small.exists_frame?_bulky (1 + 1)
  have hframes : Request.frames Small.requests = [Small.query, f, Small.creation] := by
    have hquery : Request.frame? 1 (.query .first) = some Small.query := rfl
    have hcreation : Request.frame? (1 + 1 + 1) (.create { low := 2, high := 5 }) =
        some Small.creation := by cbv
    rw [Request.frames, Small.requests, Request.framesFrom_of_none (Small.frame?_overlong 1),
      Request.framesFrom_of_some hquery, Request.framesFrom_of_some hf,
      Request.framesFrom_of_some hcreation]
    rfl
  have hsent : Request.sent Small.requests = [Small.query, Small.creation] := by
    have hlong : f.isSendable = false := by
      rw [Frame.isSendable, hlength]
      decide
    rw [Request.sent, hframes, List.filter_cons_of_pos (by decide),
      List.filter_cons_of_neg (by rw [hlong]; decide), List.filter_cons_of_pos (by decide)]
    rfl
  rw [hsent] at hwritten
  refine ⟨takes, ?_, ?_⟩
  · have hbytes : encodeAll [Small.query, Small.creation] = .ok Small.written := by cbv
    rw [houtput, Except.ok.inj (hwritten.symm.trans hbytes)]
    rfl
  · rw [hnext, hframes]
    rfl

end Client

end SharedSync
